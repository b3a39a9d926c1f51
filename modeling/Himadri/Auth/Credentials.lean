import Mathlib.Data.Nat.Bitwise
import Himadri.Core.Utf8

/-!
# Comparing credentials

`ct_eq` folds the differences of two byte strings into one byte, the shorter padded with zeros, and
starts from the difference of the lengths. That difference is cut to its low byte, so what the
comparison cannot tell apart is a string and itself with a multiple of 256 zero bytes behind it
(`ctEq_eq_true_iff`).
-/

namespace Himadri

/-- The byte at a position, or zero behind the end. -/
def byteAt (bytes : List UInt8) (i : ℕ) : UInt8 := (bytes[i]?).getD 0

/-- `ct_eq`. -/
def ctEq (a b : List UInt8) : Bool :=
  ((List.range (max a.length b.length)).foldl (fun diff i ↦ diff ||| (byteAt a i ^^^ byteAt b i))
    (UInt8.ofNat (a.length ^^^ b.length))) == 0

/-- The second string is the first with a multiple of 256 zero bytes, and some, behind it. -/
def PaddedTo (a b : List UInt8) : Prop := ∃ k, 0 < k ∧ b = a ++ List.replicate (256 * k) 0

/-- One of the strings is the other, padded. -/
def PaddedPair (a b : List UInt8) : Prop := PaddedTo a b ∨ PaddedTo b a

/-- The credentials of `AdminLogin`. -/
structure AdminCredentials where
  username : String
  password : String
  deriving DecidableEq

/-- `AdminLogin::verify`. Both comparisons are made. -/
def AdminCredentials.verify (login : AdminCredentials) (username password : String) : Bool :=
  let userOk := ctEq (Utf8.bytes username) (Utf8.bytes login.username)
  let passOk := ctEq (Utf8.bytes password) (Utf8.bytes login.password)
  userOk && passOk

section Compare

variable {a b : List UInt8}

/-- Nothing is ever taken out of the accumulator. -/
theorem foldl_diff_eq_zero {f : ℕ → UInt8} (l : List ℕ) (diff : UInt8) :
    l.foldl (fun diff i ↦ diff ||| f i) diff = 0 ↔ diff = 0 ∧ ∀ i ∈ l, f i = 0 := by
  induction l generalizing diff with
  | nil => simp
  | cons i l ih =>
    rw [List.foldl_cons, ih, UInt8.or_eq_zero_iff, List.forall_mem_cons, and_assoc]

theorem ofNat_xor_eq_zero {m n : ℕ} : UInt8.ofNat (m ^^^ n) = 0 ↔ m % 256 = n % 256 := by
  have hofNat : UInt8.ofNat (m ^^^ n) = 0 ↔ (m ^^^ n) % 2 ^ 8 = 0 := by
    rw [← UInt8.toNat_inj, UInt8.toNat_ofNat']
    rfl
  rw [hofNat, Nat.xor_mod_two_pow, Nat.xor_eq_zero_iff]

theorem ctEq_eq_true : ctEq a b = true ↔
    a.length % 256 = b.length % 256 ∧ ∀ i < max a.length b.length, byteAt a i = byteAt b i := by
  rw [ctEq, beq_iff_eq, foldl_diff_eq_zero, ofNat_xor_eq_zero]
  simp only [List.mem_range, UInt8.xor_eq_zero_iff]

/-- The longer string is the other with zeros behind it, where no byte differs. -/
theorem eq_append_zeros (hle : a.length ≤ b.length)
    (hbytes : ∀ i < max a.length b.length, byteAt a i = byteAt b i) :
    b = a ++ List.replicate (b.length - a.length) 0 := by
  refine List.ext_getElem (by simp [hle]) fun i hi hi' ↦ ?_
  have hbyte := hbytes i (hi.trans_le (Nat.le_max_right ..))
  rw [byteAt, byteAt, List.getElem?_eq_getElem hi, Option.getD_some] at hbyte
  rw [← hbyte]
  by_cases hlt : i < a.length
  · rw [List.getElem?_eq_getElem hlt, Option.getD_some, List.getElem_append_left hlt]
  · rw [List.getElem?_eq_none (Nat.le_of_not_lt hlt), Option.getD_none,
      List.getElem_append_right (Nat.le_of_not_lt hlt), List.getElem_replicate]

theorem byteAt_append_zeros (a : List UInt8) (n i : ℕ) :
    byteAt (a ++ List.replicate n 0) i = byteAt a i := by
  rw [byteAt, byteAt]
  by_cases hlt : i < a.length
  · rw [List.getElem?_append_left hlt]
  · rw [List.getElem?_append_right (Nat.le_of_not_lt hlt), List.getElem?_replicate,
      List.getElem?_eq_none (Nat.le_of_not_lt hlt)]
    split_ifs <;> rfl

theorem ctEq_comm (a b : List UInt8) : ctEq a b = ctEq b a := by
  rw [Bool.eq_iff_iff, ctEq_eq_true, ctEq_eq_true, max_comm, eq_comm]
  simp only [eq_comm]

theorem ctEq_of_paddedTo (h : PaddedTo a b) : ctEq a b = true := by
  obtain ⟨k, -, rfl⟩ := h
  rw [ctEq_eq_true]
  refine ⟨?_, fun i _ ↦ (byteAt_append_zeros a _ i).symm⟩
  rw [List.length_append, List.length_replicate, Nat.add_mul_mod_self_left]

theorem paddedTo_of_ctEq (h : ctEq a b = true) (hlt : a.length < b.length) : PaddedTo a b := by
  obtain ⟨hlength, hbytes⟩ := ctEq_eq_true.1 h
  have heq := eq_append_zeros hlt.le hbytes
  refine ⟨(b.length - a.length) / 256, ?_, ?_⟩
  · omega
  · have hk : 256 * ((b.length - a.length) / 256) = b.length - a.length := by omega
    rw [hk]
    exact heq

/-- What the comparison accepts. -/
theorem ctEq_eq_true_iff : ctEq a b = true ↔ a = b ∨ PaddedPair a b := by
  constructor
  · intro h
    rcases lt_trichotomy a.length b.length with hlt | heq | hlt
    · exact .inr (.inl (paddedTo_of_ctEq h hlt))
    · have hab := eq_append_zeros heq.le (ctEq_eq_true.1 h).2
      rw [heq, Nat.sub_self, List.replicate_zero, List.append_nil] at hab
      exact .inl hab.symm
    · rw [ctEq_comm] at h
      exact .inr (.inr (paddedTo_of_ctEq h hlt))
  · rintro (rfl | h | h)
    · exact ctEq_eq_true.2 ⟨rfl, fun _ _ ↦ rfl⟩
    · exact ctEq_of_paddedTo h
    · rw [ctEq_comm]
      exact ctEq_of_paddedTo h

theorem ne_of_paddedPair (h : PaddedPair a b) : a ≠ b := by
  rintro rfl
  rcases h with ⟨k, hk, h⟩ | ⟨k, hk, h⟩
  · have hlength := congrArg List.length h
    simp at hlength
    omega
  · have hlength := congrArg List.length h
    simp at hlength
    omega

end Compare

theorem bytes_injective : Function.Injective Utf8.bytes := by
  intro s t h
  have hs := Utf8.fromUtf8_bytes s
  rw [h, Utf8.fromUtf8_bytes t] at hs
  exact (Option.some.inj hs).symm

/-- The comparison is equality exactly for strings of which none is the other with a multiple of 256
zero bytes behind it, and a login is accepted for the configured credentials alone unless what is
given differs from them in this way alone. -/
theorem ctEq_exact_iff (a b : List UInt8) (login : AdminCredentials) (username password : String) :
    ((ctEq a b = true ↔ a = b) ↔ ¬PaddedPair a b) ∧
      ((login.verify username password = true ↔
          username = login.username ∧ password = login.password) ↔
        ¬((PaddedPair (Utf8.bytes username) (Utf8.bytes login.username) ∧
              (password = login.password ∨
                PaddedPair (Utf8.bytes password) (Utf8.bytes login.password))) ∨
          username = login.username ∧
            PaddedPair (Utf8.bytes password) (Utf8.bytes login.password))) := by
  have hne (s t : String) (h : PaddedPair (Utf8.bytes s) (Utf8.bytes t)) : s ≠ t := fun heq ↦
    ne_of_paddedPair h (congrArg Utf8.bytes heq)
  constructor
  · rw [ctEq_eq_true_iff]
    have hab := ne_of_paddedPair (a := a) (b := b)
    tauto
  · have huser := hne username login.username
    have hpass := hne password login.password
    rw [AdminCredentials.verify, Bool.and_eq_true, ctEq_eq_true_iff, ctEq_eq_true_iff,
      bytes_injective.eq_iff, bytes_injective.eq_iff]
    tauto

/-- A NUL character is a zero byte. -/
theorem bytes_append_nuls (s : String) (n : ℕ) :
    Utf8.bytes (s ++ .ofList (List.replicate n (.ofNat 0))) =
      Utf8.bytes s ++ List.replicate n 0 := by
  have hnul : String.utf8EncodeChar (.ofNat 0) = [0] := by decide
  rw [Utf8.bytes, Utf8.bytes, String.toList_append, String.toList_ofList, Utf8.encode,
    List.flatMap_append]
  congr 1
  induction n with
  | zero => rfl
  | succ n ih => rw [List.replicate_succ, List.flatMap_cons, hnul, ih]; rfl

/-- A password with 256 zero bytes behind it. -/
def paddedPassword : String := "hunter2" ++ .ofList (List.replicate 256 (.ofNat 0))

theorem paddedPassword_accepted :
    (AdminCredentials.mk "admin" "hunter2").verify "admin" paddedPassword = true ∧
      paddedPassword ≠ "hunter2" ∧
      ctEq (Utf8.bytes paddedPassword) (Utf8.bytes "hunter2") = true ∧
      Utf8.bytes paddedPassword ≠ Utf8.bytes "hunter2" := by
  have hpadded : PaddedTo (Utf8.bytes "hunter2") (Utf8.bytes paddedPassword) :=
    ⟨1, Nat.one_pos, bytes_append_nuls "hunter2" 256⟩
  have hne : Utf8.bytes paddedPassword ≠ Utf8.bytes "hunter2" := ne_of_paddedPair (.inr hpadded)
  have heq : ctEq (Utf8.bytes paddedPassword) (Utf8.bytes "hunter2") = true := by
    rw [ctEq_comm]
    exact ctEq_of_paddedTo hpadded
  refine ⟨?_, fun h ↦ hne (congrArg Utf8.bytes h), heq, hne⟩
  rw [AdminCredentials.verify, Bool.and_eq_true]
  exact ⟨ctEq_eq_true_iff.2 (.inl rfl), heq⟩

end Himadri
