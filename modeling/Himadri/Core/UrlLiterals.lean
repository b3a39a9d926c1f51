import Himadri.Core.Url
import Mathlib.Algebra.Order.Ring.Nat
import Mathlib.Tactic.IntervalCases

/-!
# Address literals in URLs and in texts

Where the URL parser reads an IPv6 literal, the parser of `std::net` reads the same address
(`parse_of_parseIpv6`): both take digits as long as they come, and what follows the digits decides.
-/

namespace Himadri

open Digits IpParser Url

/-! ### Digits -/

namespace Digits

variable {radix : ℕ}

theorem toDigit_lt {c : Char} {n : ℕ} (h : toDigit radix c = some n) : n < radix := by
  rw [toDigit, Option.ite_none_right_eq_some] at h
  obtain ⟨hlt, heq⟩ := h
  rw [← Option.some_inj.1 heq]
  exact hlt

theorem value_concat (digits : List Char) (c : Char) :
    value radix (digits ++ [c]) = value radix digits * radix + (toDigit radix c).getD 0 := by
  rw [value, List.foldl_append]
  rfl

theorem value_lt (hradix : 0 < radix) (digits : List Char) :
    value radix digits < radix ^ digits.length := by
  induction digits using List.reverseRecOn with
  | nil => exact Nat.one_pos
  | append_singleton digits c ih =>
    have hdigit : (toDigit radix c).getD 0 < radix := by
      rcases hc : toDigit radix c with - | n
      · exact hradix
      · exact toDigit_lt hc
    rw [value_concat, List.length_append, List.length_singleton, pow_succ]
    calc value radix digits * radix + (toDigit radix c).getD 0
        < value radix digits * radix + radix := Nat.add_lt_add_left hdigit _
      _ = (value radix digits + 1) * radix := (Nat.succ_mul _ _).symm
      _ ≤ radix ^ digits.length * radix := Nat.mul_le_mul_right _ ih

end Digits

theorem IpParser.readNumber_eq_some {radix maxDigits size : ℕ} {allow : Bool} {s : List Char}
    (hne : s.takeWhile (isDigit radix) ≠ [])
    (hlength : (s.takeWhile (isDigit radix)).length ≤ maxDigits)
    (hzero : allow = false → (s.takeWhile (isDigit radix)).head? = some '0' →
      (s.takeWhile (isDigit radix)).length ≤ 1)
    (hsize : value radix (s.takeWhile (isDigit radix)) < size) :
    readNumber radix maxDigits size allow s =
      some (value radix (s.takeWhile (isDigit radix)), s.dropWhile (isDigit radix)) := by
  rw [readNumber]
  refine if_neg fun h ↦ ?_
  rw [Bool.or_eq_true, Bool.or_eq_true, Bool.or_eq_true] at h
  rcases h with ((h | h) | h) | h
  · exact hne (List.isEmpty_iff.1 h)
  · have := of_decide_eq_true h
    omega
  · rw [Bool.and_eq_true, Bool.and_eq_true] at h
    have hlt := of_decide_eq_true h.2
    have := hzero (by simpa using h.1.1) (beq_iff_eq.1 h.1.2)
    omega
  · have := of_decide_eq_true h
    omega

/-! ### IPv4 -/

/-- Digits are taken as long as they come, after a nonzero number and below 256. -/
theorem Url.ipv4Piece_some {m n : ℕ} {s rest : List Char}
    (h : ipv4Piece (some m) s = some (n, rest)) (hm : m < 256) :
      rest = s.dropWhile (isDigit 10) ∧ n < 256 ∧
      n = (s.takeWhile (isDigit 10)).foldl (fun n c ↦ n * 10 + (toDigit 10 c).getD 0) m ∧
      m * 10 ^ (s.takeWhile (isDigit 10)).length ≤ n ∧
      (m = 0 → s.takeWhile (isDigit 10) = []) := by
  induction s generalizing m with
  | nil =>
    obtain ⟨rfl, rfl⟩ := Prod.mk.inj (Option.some_inj.1 h)
    exact ⟨rfl, hm, rfl, by simp, fun _ ↦ rfl⟩
  | cons c s ih =>
    rcases hc : toDigit 10 c with - | digit
    · have hno : isDigit 10 c = false := by rw [isDigit, hc]; rfl
      rw [ipv4Piece, hc] at h
      obtain ⟨rfl, rfl⟩ := Prod.mk.inj (Option.some_inj.1 h)
      rw [List.takeWhile_cons_of_neg (by simp [hno]), List.dropWhile_cons_of_neg (by simp [hno])]
      exact ⟨rfl, hm, rfl, by simp, fun _ ↦ rfl⟩
    · have hyes : isDigit 10 c = true := by rw [isDigit, hc]; rfl
      rw [ipv4Piece, hc] at h
      obtain ⟨hok, h⟩ := Option.ite_none_left_eq_some.1 h
      rw [Bool.or_eq_true, decide_eq_true_eq, decide_eq_true_eq] at hok
      obtain ⟨hrest, hn, hvalue, hgrow, -⟩ := ih h (by omega)
      rw [List.takeWhile_cons_of_pos hyes, List.dropWhile_cons_of_pos hyes]
      refine ⟨hrest, hn, ?_, ?_, fun hzero ↦ absurd (.inl hzero) hok⟩
      · rw [List.foldl_cons, hc]
        exact hvalue
      · rw [List.length_cons, pow_succ']
        calc m * (10 * 10 ^ (s.takeWhile (isDigit 10)).length)
            = m * 10 * 10 ^ (s.takeWhile (isDigit 10)).length := (Nat.mul_assoc _ _ _).symm
          _ ≤ (m * 10 + digit) * 10 ^ (s.takeWhile (isDigit 10)).length :=
            Nat.mul_le_mul_right _ (Nat.le_add_right _ _)
          _ ≤ n := hgrow

/-- A number of the address at the end is an octet. -/
theorem Url.readNumber_of_ipv4Piece {n : ℕ} {s rest : List Char}
    (h : ipv4Piece none s = some (n, rest)) : readNumber 10 3 256 false s = some (n, rest) := by
  rcases s with - | ⟨c, s⟩
  · cases h
  rcases hc : toDigit 10 c with - | digit
  · rw [ipv4Piece, hc] at h
    cases h
  have hyes : isDigit 10 c = true := by rw [isDigit, hc]; rfl
  rw [ipv4Piece, hc] at h
  obtain ⟨hrest, hn, hvalue, hgrow, hzero⟩ := ipv4Piece_some h (by have := toDigit_lt hc; omega)
  have htake : (c :: s).takeWhile (isDigit 10) = c :: s.takeWhile (isDigit 10) :=
    List.takeWhile_cons_of_pos hyes
  have hwhole : value 10 ((c :: s).takeWhile (isDigit 10)) = n := by
    rw [htake, value, List.foldl_cons, hc, hvalue]
    simp
  have hshort : digit = 0 ∨ (s.takeWhile (isDigit 10)).length ≤ 2 := by
    rcases Nat.eq_zero_or_pos digit with hzero | hpos
    · exact .inl hzero
    · right
      by_contra hlong
      have hpow : 10 ^ 3 ≤ 10 ^ (s.takeWhile (isDigit 10)).length :=
        Nat.pow_le_pow_right (by omega) (by omega)
      have := Nat.mul_le_mul hpos hpow
      omega
  have hlength : ((c :: s).takeWhile (isDigit 10)).length ≤ 3 := by
    rw [htake, List.length_cons]
    rcases hshort with hdigit | hlength
    · rw [hzero hdigit]
      exact Nat.le_of_ble_eq_true rfl
    · omega
  rw [readNumber_eq_some (by rw [htake]; exact List.cons_ne_nil _ _) hlength ?_ (by omega), hwhole,
    List.dropWhile_cons_of_pos hyes, hrest]
  intro _ hhead
  rw [htake, List.head?_cons, Option.some_inj] at hhead
  obtain rfl : digit = 0 := by
    rw [hhead] at hc
    exact (Option.some_inj.1 hc).symm
  rw [htake, hzero rfl]
  exact Nat.le_refl 1

/-- An item with its separator is an item. -/
theorem IpParser.of_readSeparator {α : Type} {sep : Char} {first : Bool}
    {inner : List Char → Option (α × List Char)} {s : List Char} {r : α × List Char}
    (h : readSeparator sep first inner s = some r) : ∃ t, inner t = some r := by
  rcases first with - | -
  · rcases s with - | ⟨c, s⟩
    · cases h
    · exact ⟨s, (Option.ite_none_right_eq_some.1 h).2⟩
  · exact ⟨s, h⟩

/-- One more number of the address at the end is one more octet. -/
theorem Url.readOctet_of_ipv4Pieces {count : ℕ} {first : Bool} {s : List Char} {ns : List ℕ}
    (h : ipv4Pieces (count + 1) first s = some ns) :
    ∃ n rest ns', readOctet first s = some (n, rest) ∧ ipv4Pieces count false rest = some ns' ∧
      ns = n :: ns' := by
  have hread (n : ℕ) (t rest : List Char) (hpiece : ipv4Piece none t = some (n, rest))
      (hmap : (ipv4Pieces count false rest).map (n :: ·) = some ns) :
      ∃ ns', ipv4Pieces count false rest = some ns' ∧ ns = n :: ns' := by
    obtain ⟨ns', hns', heq⟩ := Option.map_eq_some_iff.1 hmap
    exact ⟨ns', hns', heq.symm⟩
  rw [ipv4Pieces] at h
  rcases first with - | -
  · rw [if_neg Bool.false_ne_true] at h
    rcases s with - | ⟨c, s⟩
    · cases h
    by_cases hc : c = '.'
    · rw [List.head?_cons, if_pos (congrArg some hc), List.tail_cons, Option.bind_some] at h
      rcases hpiece : ipv4Piece none s with - | ⟨n, rest⟩
      · rw [hpiece] at h
        cases h
      rw [hpiece] at h
      obtain ⟨ns', hns', heq⟩ := hread n s rest hpiece h
      refine ⟨n, rest, ns', ?_, hns', heq⟩
      rw [readOctet, readSeparator, if_neg Bool.false_ne_true]
      exact (if_pos hc).trans (readNumber_of_ipv4Piece hpiece)
    · rw [List.head?_cons, if_neg fun heq ↦ hc (Option.some_inj.1 heq), Option.bind_none] at h
      cases h
  · rw [if_pos rfl, Option.bind_some] at h
    rcases hpiece : ipv4Piece none s with - | ⟨n, rest⟩
    · rw [hpiece] at h
      cases h
    rw [hpiece] at h
    obtain ⟨ns', hns', heq⟩ := hread n s rest hpiece h
    exact ⟨n, rest, ns', readNumber_of_ipv4Piece hpiece, hns', heq⟩

theorem IpParser.readNumber_lt {radix maxDigits size n : ℕ} {allow : Bool} {s rest : List Char}
    (h : readNumber radix maxDigits size allow s = some (n, rest)) :
    n < size ∧ rest = s.dropWhile (isDigit radix) := by
  rw [readNumber, Option.ite_none_left_eq_some] at h
  obtain ⟨hok, heq⟩ := h
  obtain ⟨rfl, rfl⟩ := Prod.mk.inj (Option.some_inj.1 heq)
  rw [Bool.or_eq_true, not_or, decide_eq_true_eq] at hok
  exact ⟨by omega, rfl⟩

/-- The address at the end is one of `std::net`, in the same segments. -/
theorem Url.readIpv4Addr_of_ipv4Pieces {s : List Char} {ns : List ℕ}
    (h : ipv4Pieces 4 true s = some ns) :
    ∃ ip, readIpv4Addr s = some (ip, []) ∧ pairs ns = (segmentsOf ip).map .value := by
  obtain ⟨a, s₁, ns₁, ha, h₁, rfl⟩ := readOctet_of_ipv4Pieces h
  obtain ⟨b, s₂, ns₂, hb, h₂, rfl⟩ := readOctet_of_ipv4Pieces h₁
  obtain ⟨c, s₃, ns₃, hc, h₃, rfl⟩ := readOctet_of_ipv4Pieces h₂
  obtain ⟨d, s₄, ns₄, hd, h₄, rfl⟩ := readOctet_of_ipv4Pieces h₃
  obtain ⟨hend, hns₄⟩ := Option.ite_none_right_eq_some.1 h₄
  obtain rfl : ns₄ = [] := (Option.some_inj.1 hns₄).symm
  obtain rfl : s₄ = [] := List.isEmpty_iff.1 hend
  have hoctet {first : Bool} {n : ℕ} {t rest : List Char}
      (hread : readOctet first t = some (n, rest)) : n < 256 := by
    obtain ⟨t', hread⟩ := of_readSeparator hread
    exact (readNumber_lt hread).1
  refine ⟨⟨octet a, octet b, octet c, octet d⟩, ?_, ?_⟩
  · rw [readIpv4Addr, ha]
    show ((readOctet false s₁).bind fun r ↦ (readOctet false r.2).bind fun r' ↦
      (readOctet false r'.2).bind fun r'' ↦ _) = _
    rw [hb, Option.bind_some, hc, Option.bind_some, hd, Option.bind_some]
    rfl
  · rw [pairs, segmentsOf, val_octet (hoctet ha), val_octet (hoctet hb), val_octet (hoctet hc),
      val_octet (hoctet hd)]
    rfl

/-- An address in dots has a dot after its first digits. -/
theorem IpParser.dot_of_readIpv4Addr {s rest : List Char} {ip : Ipv4Addr}
    (h : readIpv4Addr s = some (ip, rest)) : ∃ t, s.dropWhile (isDigit 10) = '.' :: t := by
  obtain ⟨⟨a, s₁⟩, ha, h⟩ := Option.bind_eq_some_iff.1 h
  obtain ⟨⟨b, s₂⟩, hb, -⟩ := Option.bind_eq_some_iff.1 h
  have hs₁ : s₁ = s.dropWhile (isDigit 10) := (readNumber_lt ha).2
  rw [← hs₁]
  rcases s₁ with - | ⟨c, t⟩
  · cases hb
  · obtain ⟨rfl, -⟩ := Option.ite_none_right_eq_some.1 hb
    exact ⟨t, rfl⟩

/-- Hexadecimal digits before a dot are decimal ones, or the address does not begin. -/
theorem IpParser.dropWhile_hex {l after t : List Char} (hl : ∀ c ∈ l, isDigit 16 c)
    (h : (l ++ after).dropWhile (isDigit 10) = '.' :: t) : ∃ t', after.dropWhile (isDigit 10) =
      '.' :: t' := by
  induction l with
  | nil => exact ⟨t, h⟩
  | cons c l ih =>
    rw [List.cons_append] at h
    rcases hc : isDigit 10 c with - | -
    · rw [List.dropWhile_cons_of_neg (by simp [hc])] at h
      obtain ⟨rfl, -⟩ := List.cons.inj h
      exact absurd (hl '.' List.mem_cons_self) (by decide)
    · rw [List.dropWhile_cons_of_pos hc] at h
      exact ih (fun c' hc' ↦ hl c' (List.mem_cons_of_mem c hc')) h

/-! ### IPv6 -/

/-- At most four digits are taken, and one more of them is not what may follow. -/
theorem Url.drop_pieceDigits {s after : List Char} (h : s.drop (pieceDigits s).length = after)
    (hafter : ∀ c ∈ after.head?, isDigit 16 c = false) :
    (s.takeWhile (isDigit 16)).length ≤ 4 ∧ after = s.dropWhile (isDigit 16) := by
  obtain ⟨digits, rest, hsplit, hdigits, hrest⟩ : ∃ digits rest, s = digits ++ rest ∧
      s.takeWhile (isDigit 16) = digits ∧ s.dropWhile (isDigit 16) = rest :=
    ⟨_, _, List.takeWhile_append_dropWhile.symm, rfl, rfl⟩
  rw [pieceDigits, List.length_take, hdigits] at h
  rw [hdigits, hrest]
  have hlength : digits.length ≤ 4 := by
    by_contra hlong
    rw [Nat.min_eq_left (by omega), hsplit, List.drop_append_of_le_length (by omega)] at h
    rcases hfifth : digits.drop 4 with - | ⟨c, cs⟩
    · rw [List.drop_eq_nil_iff] at hfifth
      omega
    · rw [hfifth] at h
      have hdigit : isDigit 16 c := by
        have hmem : c ∈ s.takeWhile (isDigit 16) := by
          rw [hdigits]
          exact List.mem_of_mem_drop (hfifth ▸ List.mem_cons_self)
        exact List.mem_takeWhile_imp hmem
      rw [hafter c (by rw [← h]; rfl)] at hdigit
      cases hdigit
  refine ⟨hlength, ?_⟩
  rw [← h, Nat.min_eq_right hlength, hsplit, List.drop_left]

/-- A group of digits with nothing or a colon after it is a group of `std::net`, and no IPv4 address
begins there. -/
theorem Url.readNumber_of_pieceDigits {s rest : List Char}
    (h : s.drop (pieceDigits s).length = rest) (hrest : rest = [] ∨ ∃ rest', rest = ':' :: rest')
    (hne : s.takeWhile (isDigit 16) ≠ []) :
    readIpv4Addr s = none ∧
      readNumber 16 4 65536 true s = some (value 16 (pieceDigits s), rest) := by
  have hhead : ∀ x ∈ rest.head?, isDigit 16 x = false := by
    rcases hrest with rfl | ⟨rest', rfl⟩
    · exact fun x hx ↦ (by cases hx)
    · intro x hx
      rw [← Option.some_inj.1 hx]
      decide
  obtain ⟨hlength, hdrop⟩ := drop_pieceDigits h hhead
  constructor
  · rcases hread : readIpv4Addr s with - | ⟨ip, rest'⟩
    · rfl
    · obtain ⟨t, ht⟩ := dot_of_readIpv4Addr hread
      rw [← List.takeWhile_append_dropWhile (p := isDigit 16) (l := s)] at ht
      obtain ⟨t', ht'⟩ := dropWhile_hex (fun x hx ↦ List.mem_takeWhile_imp hx) ht
      rw [← hdrop] at ht'
      rcases hrest with rfl | ⟨rest', rfl⟩
      · cases ht'
      · rw [List.dropWhile_cons_of_neg (by decide)] at ht'
        cases ht'
  · have hsmall : value 16 (s.takeWhile (isDigit 16)) < 65536 :=
      lt_of_lt_of_le (value_lt (by omega) _)
        (Nat.pow_le_pow_right (show 0 < 16 by omega) hlength)
    rw [readNumber_eq_some hne hlength (by simp) hsmall, pieceDigits,
      List.take_of_length_le hlength, hdrop]

/-- **What the loop takes first**: a colon of the gap, an IPv4 address to the end, or a group with
the colon after it. -/
theorem Url.pieces_cons {room : ℕ} {compressed : Bool} {c : Char} {s : List Char} {ps : List Piece}
    (h : pieces (room + 1) compressed (c :: s) = some ps) :
    (c = ':' ∧ compressed = false ∧ ∃ ps', pieces room true s = some ps' ∧ ps = .gap :: ps') ∨
    (∃ ip, 0 < room ∧ readIpv4Addr (c :: s) = some (ip, []) ∧
      ps = (segmentsOf ip).map .value) ∨
    (∃ n rest ps', readIpv4Addr (c :: s) = none ∧
      readNumber 16 4 65536 true (c :: s) = some (n, rest) ∧
      ps = .value (segment n) :: ps' ∧ ((rest = [] ∧ ps' = []) ∨
        ∃ rest', rest = ':' :: rest' ∧ rest' ≠ [] ∧ pieces room compressed rest' = some ps')) := by
  rw [pieces] at h
  by_cases hc : c = ':'
  · rw [if_pos hc] at h
    obtain ⟨hcompressed, h⟩ := Option.ite_none_left_eq_some.1 h
    obtain ⟨ps', hps', heq⟩ := Option.map_eq_some_iff.1 h
    exact .inl ⟨hc, by simpa using hcompressed, ps', hps', heq.symm⟩
  rw [if_neg hc] at h
  right
  -- without a digit, what follows the digits is the character itself
  have hne {rest : List Char} (hdrop : (c :: s).drop (pieceDigits (c :: s)).length = rest)
      (hhead : rest.head? ≠ some c) : (c :: s).takeWhile (isDigit 16) ≠ [] := by
    intro hnil
    rw [pieceDigits, hnil] at hdrop
    exact hhead (by rw [← hdrop]; rfl)
  rcases hdrop : (c :: s).drop (pieceDigits (c :: s)).length with - | ⟨x, rest⟩
  · rw [hdrop] at h
    obtain ⟨hipv4, hnumber⟩ := readNumber_of_pieceDigits hdrop (.inl rfl)
      (hne hdrop (Option.some_ne_none c).symm)
    exact .inr ⟨_, [], [], hipv4, hnumber, (Option.some_inj.1 h).symm, .inl ⟨rfl, rfl⟩⟩
  · rw [hdrop] at h
    by_cases hdot : x = '.'
    · subst hdot
      obtain ⟨hok, h⟩ := Option.ite_none_left_eq_some.1 h
      obtain ⟨ns, hns, rfl⟩ := Option.map_eq_some_iff.1 h
      obtain ⟨ip, hip, hpairs⟩ := readIpv4Addr_of_ipv4Pieces hns
      rw [Bool.or_eq_true, not_or, decide_eq_true_eq] at hok
      exact .inl ⟨ip, Nat.pos_of_ne_zero hok.2, hip, hpairs⟩
    · by_cases hcolon : x = ':'
      · subst hcolon
        obtain ⟨hok, h⟩ := Option.ite_none_left_eq_some.1 h
        obtain ⟨ps', hps', heq⟩ := Option.map_eq_some_iff.1 h
        obtain ⟨hipv4, hnumber⟩ := readNumber_of_pieceDigits hdrop (.inr ⟨rest, rfl⟩)
          (hne hdrop fun hx ↦ hc (Option.some_inj.1 hx).symm)
        exact .inr ⟨_, _, ps', hipv4, hnumber, heq.symm,
          .inr ⟨rest, rfl, fun hnil ↦ hok (by rw [hnil]; rfl), hps'⟩⟩
      · split at h
        · next heq => cases heq
        · next heq => exact absurd (List.cons.inj heq).1 hdot
        · next heq => exact absurd (List.cons.inj heq).1 hcolon
        · cases h

namespace IpParser

/-- A text after the separator that its position asks for. -/
def separated (first : Bool) (s : List Char) : List Char := if first then s else ':' :: s

theorem readSeparator_separated {α : Type} (first : Bool)
    (inner : List Char → Option (α × List Char)) (s : List Char) :
    readSeparator ':' first inner (separated first s) = inner s := by
  rcases first with - | -
  · show (if ':' = ':' then inner s else none) = inner s
    exact if_pos rfl
  · rfl

variable {limit n : ℕ} {f : Bool} {s rest : List Char} {ip : Ipv4Addr}

theorem readGroups_ipv4 (hlimit : 0 < limit) (h : readIpv4Addr s = some (ip, rest)) :
    readGroups (limit + 1) f (separated f s) = (segmentsOf ip, true, rest) := by
  rw [readGroups, if_pos hlimit, readSeparator_separated, h]

theorem readGroups_number (hipv4 : readIpv4Addr s = none)
    (h : readNumber 16 4 65536 true s = some (n, rest)) :
    readGroups (limit + 1) f (separated f s) =
      (segment n :: (readGroups limit false rest).1, (readGroups limit false rest).2) := by
  rw [readGroups, readSeparator_separated, hipv4, ite_self, readSeparator_separated, h]

/-- Nothing begins with a character that is no digit. -/
theorem readGroups_none (h : s.takeWhile (isDigit 16) = []) :
    readGroups limit f (separated f s) = ([], false, separated f s) := by
  have hdecimal : s.takeWhile (isDigit 10) = [] := by
    rcases s with - | ⟨c, s⟩
    · rfl
    · rcases hc : isDigit 10 c with - | -
      · rw [List.takeWhile_cons_of_neg (by simp [hc])]
      · -- a decimal digit is a hexadecimal one
        rw [List.takeWhile_cons_of_pos (isDigit_mono (by omega) hc)] at h
        cases h
  have hoctet : readNumber 10 3 256 false s = none := by rw [readNumber, hdecimal]; rfl
  have hipv4 : readIpv4Addr s = none := by
    rw [readIpv4Addr, readOctet, show readSeparator '.' true (readNumber 10 3 256 false) s = none
      from hoctet]
    rfl
  have hnumber : readNumber 16 4 65536 true s = none := by rw [readNumber, h]; rfl
  rcases limit with - | limit
  · rfl
  · rw [readGroups, readSeparator_separated, hipv4, ite_self, readSeparator_separated, hnumber]

theorem readGroups_nil : readGroups limit false [] = ([], false, []) := by
  rcases limit with - | limit
  · rfl
  · have hnone : (if 0 < limit then readSeparator ':' false readIpv4Addr [] else none) = none :=
      ite_self none
    rw [readGroups, hnone]
    rfl

end IpParser

/-- After the gap, the pieces are the groups that are left to read. -/
theorem Url.readGroups_of_compressed {room : ℕ} {f : Bool} {s : List Char} {ps : List Piece}
    (hs : f = true ∨ s ≠ []) (h : pieces room true s = some ps) :
    ∃ vs ipv4, ps = vs.map .value ∧
      readGroups room f (separated f s) = (vs, ipv4, []) := by
  induction room generalizing f s ps with
  | zero =>
    rcases s with - | ⟨c, s⟩
    · obtain rfl := hs.resolve_right fun hne ↦ hne rfl
      exact ⟨[], false, (Option.some_inj.1 h).symm, rfl⟩
    · cases h
  | succ room ih =>
    rcases s with - | ⟨c, s⟩
    · obtain rfl := hs.resolve_right fun hne ↦ hne rfl
      exact ⟨[], false, (Option.some_inj.1 h).symm, readGroups_none rfl⟩
    · rcases pieces_cons h with ⟨-, hfalse, -⟩ | ⟨ip, hroom, hip, rfl⟩ |
        ⟨n, rest, ps', hipv4, hnumber, rfl, hrest⟩
      · cases hfalse
      · exact ⟨segmentsOf ip, true, rfl, readGroups_ipv4 hroom hip⟩
      · rw [readGroups_number hipv4 hnumber]
        rcases hrest with ⟨rfl, rfl⟩ | ⟨rest', rfl, hne, hps'⟩
        · exact ⟨[segment n], false, rfl, by rw [readGroups_nil]⟩
        · obtain ⟨vs, ipv4, rfl, hgroups⟩ := ih (f := false) (.inr hne) hps'
          have hcolon : readGroups room false (':' :: rest') = (vs, ipv4, []) := hgroups
          exact ⟨segment n :: vs, ipv4, rfl, by rw [hcolon]⟩

/-- Before the gap, they are the groups that are read first; then comes the gap. -/
theorem Url.readGroups_of_pieces {room : ℕ} {f : Bool} {s : List Char} {ps : List Piece}
    (hs : s ≠ []) (hfirst : f = true → s.head? ≠ some ':') (h : pieces room false s = some ps) :
    (∃ vs ipv4, ps = vs.map .value ∧
      readGroups room f (separated f s) = (vs, ipv4, [])) ∨
    ∃ vs room' rest ps', ps = vs.map .value ++ .gap :: ps' ∧
      readGroups room f (separated f s) = (vs, false, ':' :: ':' :: rest) ∧
      pieces room' true rest = some ps' ∧ vs.length + 1 + room' = room := by
  induction room generalizing f s ps with
  | zero =>
    rcases s with - | ⟨c, s⟩
    · exact absurd rfl hs
    · cases h
  | succ room ih =>
    rcases s with - | ⟨c, s⟩
    · exact absurd rfl hs
    · rcases pieces_cons h with ⟨rfl, -, ps', hps', rfl⟩ | ⟨ip, hroom, hip, rfl⟩ |
        ⟨n, rest, ps', hipv4, hnumber, rfl, hrest⟩
      · -- the gap is where no group is
        obtain rfl : f = false := by
          rcases f with - | -
          · rfl
          · exact absurd rfl (hfirst rfl)
        refine .inr ⟨[], room, s, ps', rfl, ?_, hps', by rw [List.length_nil]; omega⟩
        exact readGroups_none (List.takeWhile_cons_of_neg (by decide))
      · exact .inl ⟨segmentsOf ip, true, rfl, readGroups_ipv4 hroom hip⟩
      · rw [readGroups_number hipv4 hnumber]
        rcases hrest with ⟨rfl, rfl⟩ | ⟨rest', rfl, hne, hps'⟩
        · exact .inl ⟨[segment n], false, rfl, by rw [readGroups_nil]⟩
        · rcases ih (f := false) hne (fun hfalse ↦ by cases hfalse) hps' with
            ⟨vs, ipv4, rfl, hgroups⟩ | ⟨vs, room', rest, ps'', rfl, hgroups, hps'', hroom⟩
          · have hcolon : readGroups room false (':' :: rest') = (vs, ipv4, []) := hgroups
            exact .inl ⟨segment n :: vs, ipv4, rfl, by rw [hcolon]⟩
          · have hcolon : readGroups room false (':' :: rest') =
                (vs, false, ':' :: ':' :: rest) := hgroups
            exact .inr ⟨segment n :: vs, room', rest, ps'', rfl, by rw [hcolon], hps'',
              by rw [List.length_cons]; omega⟩

theorem Url.spread_values (vs : List (Fin 65536)) (ps : List Piece) :
    spread (vs.map .value ++ ps) = (vs ++ (spread ps).1, (spread ps).2) := by
  induction vs with
  | nil => rfl
  | cons v vs ih => rw [List.map_cons, List.cons_append, spread, ih]; rfl

/-- Without the gap, no IPv4 address stands alone. -/
theorem Url.readIpv4Addr_of_pieces {room : ℕ} {s : List Char} {ps : List Piece}
    (h : pieces room false s = some ps) (hlength : ∀ ip, ps ≠ (segmentsOf ip).map .value) :
    readIpv4Addr s = none := by
  have hnone : readIpv4Addr [] = none := rfl
  rcases room with - | room
  · rcases s with - | ⟨c, s⟩
    · exact hnone
    · cases h
  · rcases s with - | ⟨c, s⟩
    · exact hnone
    · rcases pieces_cons h with ⟨rfl, -⟩ | ⟨ip, -, -, rfl⟩ | ⟨n, rest, ps', hipv4, -⟩
      · rfl
      · exact absurd rfl (hlength ip)
      · exact hipv4

theorem Url.readIpv6Addr_of_gap {s rest : List Char} {head : List (Fin 65536)} {room : ℕ}
    {ps : List Piece} (hgroups : readGroups 8 true s = (head, false, ':' :: ':' :: rest))
    (hps : pieces room true rest = some ps) (hroom : head.length + 1 + room = 8) {ip : Ipv6Addr}
    (hip : ofPieces (head.map .value ++ .gap :: ps) = some ip) :
    readIpv6Addr s = some (ip, []) := by
  obtain ⟨vs, ipv4, rfl, htail⟩ := readGroups_of_compressed (f := true) (.inl rfl) hps
  have hvs : spread (vs.map .value) = (vs, none) := by
    have := spread_values vs []
    rwa [List.append_nil, spread, List.append_nil] at this
  rw [ofPieces, spread_values, spread, hvs, List.append_nil] at hip
  have hfew : ¬head.length = 8 := by omega
  have htail : readGroups (8 - (head.length + 1)) true rest = (vs, ipv4, []) := by
    rw [show 8 - (head.length + 1) = room by omega]
    exact htail
  rw [readIpv6Addr, hgroups]
  show (if head.length = 8 then _ else _) = _
  rw [if_neg hfew, if_neg Bool.false_ne_true]
  show some (Ipv6Addr.ofSegments (head ++ List.replicate (8 -
    (readGroups (8 - (head.length + 1)) true rest).1.length - head.length) (segment 0) ++
    (readGroups (8 - (head.length + 1)) true rest).1),
    (readGroups (8 - (head.length + 1)) true rest).2.2) = _
  rw [htail, ← Option.some_inj.1 hip]

/-- **An IPv6 literal is an address of `std::net`.** -/
theorem parse_of_parseIpv6 {s : List Char} {ip : Ipv6Addr} (h : parseIpv6 s = some ip) :
    IpAddr.parse s = some (.v6 ip) := by
  -- it is enough that the readers of addresses say so
  have hparse (hipv4 : readIpv4Addr s = none) (hipv6 : readIpv6Addr s = some (ip, [])) :
      IpAddr.parse s = some (.v6 ip) := by
    rw [IpAddr.parse, readIpAddr, hipv4, hipv6]
    rfl
  obtain ⟨ps, hps, hip⟩ := Option.bind_eq_some_iff.1 h
  rw [literalPieces.eq_def] at hps
  split at hps
  · obtain ⟨ps', hps', rfl⟩ := Option.map_eq_some_iff.1 hps
    exact hparse rfl (readIpv6Addr_of_gap (readGroups_none (f := true) rfl) hps' rfl hip)
  · cases hps
  · next hone htwo =>
    rcases s with - | ⟨c, s⟩
    · obtain rfl := Option.some_inj.1 hps
      cases hip
    have hfirst : true = true → (c :: s).head? ≠ some ':' := by
      rintro - hc
      obtain rfl := Option.some_inj.1 hc
      exact htwo s rfl
    rcases readGroups_of_pieces (List.cons_ne_nil c s) hfirst hps with
      ⟨vs, ipv4, rfl, hgroups⟩ | ⟨vs, room, rest, ps', rfl, hgroups, hps', hroom⟩
    · have hvs : spread (vs.map .value) = (vs, none) := by
        have := spread_values vs []
        rwa [List.append_nil, spread, List.append_nil] at this
      rw [ofPieces, hvs] at hip
      obtain ⟨hlength, hip⟩ := Option.ite_none_right_eq_some.1 hip
      have hgroups : readGroups 8 true (c :: s) = (vs, ipv4, []) := hgroups
      refine hparse (readIpv4Addr_of_pieces hps fun ip' heq ↦ ?_) ?_
      · have := congrArg List.length heq
        rw [List.length_map, hlength] at this
        cases this
      · rw [readIpv6Addr, hgroups]
        show (if vs.length = 8 then some (Ipv6Addr.ofSegments vs, []) else _) = _
        rw [if_pos hlength, Option.some_inj.1 hip]
    · refine hparse (readIpv4Addr_of_pieces hps fun ip' heq ↦ ?_)
        (readIpv6Addr_of_gap hgroups hps' hroom hip)
      -- the pieces of an IPv4 address have no gap
      have hmem : Piece.gap ∈ (segmentsOf ip').map .value := by
        rw [← heq]
        exact List.mem_append_right _ List.mem_cons_self
      obtain ⟨n, -, hn⟩ := List.mem_map.1 hmem
      cases hn

/-- An address without a colon is one of IPv4. -/
theorem colon_of_parse_v6 {s : List Char} {ip : Ipv6Addr} (h : IpAddr.parse s = some (.v6 ip)) :
    ':' ∈ s := by
  by_contra hno
  have hnone {limit : ℕ} {t : List Char} (ht : ':' ∉ t) :
      readGroups limit false t = ([], false, t) := by
    have hseparator {α : Type} (inner : List Char → Option (α × List Char)) :
        readSeparator ':' false inner t = none := by
      rcases t with - | ⟨c, t⟩
      · rfl
      · refine if_neg fun hc : c = ':' ↦ ht ?_
        rw [← hc]
        exact List.mem_cons_self
    rcases limit with - | limit
    · rfl
    · rw [readGroups, hseparator, ite_self, hseparator]
  have hstart {t : List Char} (ht : ':' ∉ t) (rest : List Char) : t ≠ ':' :: rest :=
    fun heq ↦ ht (heq ▸ List.mem_cons_self)
  -- at most one group is read, or the two of an IPv4 address
  have hgroups : ∃ head ipv4 rest, readGroups 8 true s = (head, ipv4, rest) ∧ head.length < 8 ∧
      (ipv4 = true ∨ ':' ∉ rest) := by
    rcases hipv4 : readIpv4Addr s with - | ⟨ip', rest⟩
    · rcases hnumber : readNumber 16 4 65536 true s with - | ⟨n, rest⟩
      · refine ⟨[], false, s, ?_, Nat.zero_lt_succ 7, .inr hno⟩
        rw [readGroups, show readSeparator ':' true readIpv4Addr s = none from hipv4, ite_self,
          show readSeparator ':' true (readNumber 16 4 65536 true) s = none from hnumber]
      · have hrest : ':' ∉ rest := by
          rw [(readNumber_lt hnumber).2]
          exact fun hmem ↦ hno ((List.dropWhile_suffix _).mem hmem)
        refine ⟨[segment n], false, rest, ?_, show 1 < 8 by omega, .inr hrest⟩
        rw [show readGroups 8 true s = _ from readGroups_number (f := true) hipv4 hnumber,
          hnone hrest]
    · exact ⟨segmentsOf ip', true, rest, readGroups_ipv4 (f := true) (by omega) hipv4,
        show 2 < 8 by omega, .inl rfl⟩
  obtain ⟨head, ipv4, rest, hread, hlength, hend⟩ := hgroups
  have hnoread : readIpv6Addr s = none := by
    rw [readIpv6Addr, hread]
    show (if head.length = 8 then _ else _) = _
    rw [if_neg (by omega)]
    rcases ipv4 with - | -
    · have hrest := hend.resolve_left Bool.false_ne_true
      rw [if_neg Bool.false_ne_true]
      split
      · exact absurd rfl (hstart hrest _)
      · rfl
    · exact if_pos rfl
  rw [IpAddr.parse, readIpAddr, hnoread] at h
  rcases hipv4 : readIpv4Addr s with - | ⟨ip', rest⟩
  · rw [hipv4] at h
    cases h
  · rw [hipv4] at h
    rcases rest with - | ⟨c, rest⟩
    · cases h
    · cases h

/-! ### Dotted addresses -/

/-- An octet in decimal, without zeros in front. -/
structure Url.IsOctet (digits : List Char) (n : ℕ) : Prop where
  ne_nil : digits ≠ []
  isDigit : ∀ c ∈ digits, isDigit 10 c
  short : digits.head? = some '0' → digits.length ≤ 1
  value_eq : value 10 digits = n
  lt : n < 256

theorem IpParser.isOctet_of_readNumber {s rest : List Char} {n : ℕ}
    (h : readNumber 10 3 256 false s = some (n, rest)) : ∃ d, s = d ++ rest ∧ IsOctet d n := by
  refine ⟨s.takeWhile (isDigit 10), ?_, ?_⟩
  · rw [(readNumber_lt h).2, List.takeWhile_append_dropWhile]
  · have hlt := (readNumber_lt h).1
    rw [readNumber, Option.ite_none_left_eq_some] at h
    obtain ⟨hok, heq⟩ := h
    rw [Bool.or_eq_true, Bool.or_eq_true, Bool.or_eq_true, not_or, not_or, not_or] at hok
    refine ⟨fun hnil ↦ hok.1.1.1 (List.isEmpty_iff.2 hnil), fun c hc ↦ List.mem_takeWhile_imp hc,
      fun hhead ↦ ?_, (Prod.mk.inj (Option.some_inj.1 heq)).1, hlt⟩
    by_contra hlong
    refine hok.1.2 ?_
    rw [hhead]
    exact decide_eq_true (by omega)

/-- An address in dots is four octets. -/
theorem IpParser.octets_of_parse {s : List Char} {ip : Ipv4Addr}
    (h : IpAddr.parse s = some (.v4 ip)) : ∃ d₁ d₂ d₃ d₄ a b c d,
      s = d₁ ++ '.' :: (d₂ ++ '.' :: (d₃ ++ '.' :: d₄)) ∧ IsOctet d₁ a ∧ IsOctet d₂ b ∧
      IsOctet d₃ c ∧ IsOctet d₄ d ∧
      ip = ⟨octet a, octet b, octet c, octet d⟩ := by
  have hread : readIpv4Addr s = some (ip, []) := by
    rw [IpAddr.parse, readIpAddr] at h
    rcases hipv4 : readIpv4Addr s with - | ⟨ip', rest⟩
    · rw [hipv4] at h
      rcases hipv6 : readIpv6Addr s with - | ⟨ip', rest⟩
      · rw [hipv6] at h
        cases h
      · rw [hipv6] at h
        rcases rest with - | ⟨c, rest⟩
        · cases h
        · cases h
    · rw [hipv4] at h
      rcases rest with - | ⟨c, rest⟩
      · obtain rfl := IpAddr.v4.inj (Option.some_inj.1 h)
        rfl
      · cases h
  -- a further octet comes after its dot
  have hoctet {s rest : List Char} {n : ℕ} (hn : readOctet false s = some (n, rest)) :
      ∃ d, s = '.' :: (d ++ rest) ∧ IsOctet d n := by
    rcases s with - | ⟨c, s⟩
    · cases hn
    · obtain ⟨rfl, hn⟩ := Option.ite_none_right_eq_some.1 hn
      obtain ⟨d, rfl, hd⟩ := isOctet_of_readNumber hn
      exact ⟨d, rfl, hd⟩
  obtain ⟨⟨a, s₁⟩, ha, h₁⟩ := Option.bind_eq_some_iff.1 hread
  obtain ⟨⟨b, s₂⟩, hb, h₂⟩ := Option.bind_eq_some_iff.1 h₁
  obtain ⟨⟨c, s₃⟩, hc, h₃⟩ := Option.bind_eq_some_iff.1 h₂
  obtain ⟨⟨d, s₄⟩, hd, h₄⟩ := Option.bind_eq_some_iff.1 h₃
  obtain ⟨rfl, rfl⟩ := Prod.mk.inj (Option.some_inj.1 h₄)
  obtain ⟨d₁, rfl, hd₁⟩ := isOctet_of_readNumber ha
  obtain ⟨d₂, rfl, hd₂⟩ := hoctet hb
  obtain ⟨d₃, rfl, hd₃⟩ := hoctet hc
  obtain ⟨d₄, rfl, hd₄⟩ := hoctet hd
  rw [List.append_nil]
  exact ⟨d₁, d₂, d₃, d₄, a, b, c, d, rfl, hd₁, hd₂, hd₃, hd₄, rfl⟩

namespace Url

variable {digits : List Char} {n : ℕ}

theorem IsOctet.not_mem (h : IsOctet digits n) {c : Char} (hc : Digits.isDigit 10 c = false) :
    c ∉ digits := fun hmem ↦ by
  rw [h.isDigit c hmem] at hc
  cases hc

/-- An octet is read in decimal. -/
theorem IsOctet.ipv4Number (h : IsOctet digits n) : ipv4Number digits = some n := by
  have hall : digits.all (Digits.isDigit 10) := List.all_eq_true.2 h.isDigit
  have hempty : digits.isEmpty = false := by
    rw [List.isEmpty_eq_false_iff]
    exact h.ne_nil
  have hradix : radixOf digits = (10, digits) := by
    rw [radixOf.eq_def]
    split
    · exact absurd (h.short rfl) (by simp)
    · exact absurd (h.short rfl) (by simp)
    · exact absurd (h.short rfl) (by simp)
    · rfl
  rw [Url.ipv4Number, hradix, hempty, hall, if_neg Bool.false_ne_true, if_pos rfl, h.value_eq]

/-- The four octets are the labels. -/
theorem labels_octets {d₁ d₂ d₃ d₄ : List Char} {a b c d : ℕ} (h₁ : IsOctet d₁ a)
    (h₂ : IsOctet d₂ b) (h₃ : IsOctet d₃ c) (h₄ : IsOctet d₄ d) :
    (d₁ ++ '.' :: (d₂ ++ '.' :: (d₃ ++ '.' :: d₄))).splitOn '.' = [d₁, d₂, d₃, d₄] := by
  have hdot : Digits.isDigit 10 '.' = false := by decide
  rw [List.splitOn_append_cons_self_of_not_mem (h₁.not_mem hdot),
    List.splitOn_append_cons_self_of_not_mem (h₂.not_mem hdot),
    List.splitOn_append_cons_self_of_not_mem (h₃.not_mem hdot),
    List.splitOn_eq_singleton (h₄.not_mem hdot)]

/-- The address of four octets. -/
theorem parseIpv4_octets {d₁ d₂ d₃ d₄ : List Char} {a b c d : ℕ} (h₁ : IsOctet d₁ a)
    (h₂ : IsOctet d₂ b) (h₃ : IsOctet d₃ c) (h₄ : IsOctet d₄ d) :
    endsInNumber (d₁ ++ '.' :: (d₂ ++ '.' :: (d₃ ++ '.' :: d₄))) = true ∧
      parseIpv4 (d₁ ++ '.' :: (d₂ ++ '.' :: (d₃ ++ '.' :: d₄))) =
        some ⟨octet a, octet b, octet c, octet d⟩ := by
  have hlabels : labels (d₁ ++ '.' :: (d₂ ++ '.' :: (d₃ ++ '.' :: d₄))) = [d₁, d₂, d₃, d₄] := by
    rw [labels, labels_octets h₁ h₂ h₃ h₄]
    exact if_neg fun hlast ↦ h₄.ne_nil (Option.some_inj.1 hlast.1)
  constructor
  · rw [endsInNumber, hlabels]
    show (!d₄.isEmpty && d₄.all (Digits.isDigit 10) || (ipv4Number d₄).isSome) = true
    rw [h₄.ipv4Number, Option.isSome_some, Bool.or_true]
  · have hnumbers : [d₁, d₂, d₃, d₄].mapM ipv4Number = some [a, b, c, d] := by
      rw [List.mapM_cons, h₁.ipv4Number, List.mapM_cons, h₂.ipv4Number, List.mapM_cons,
        h₃.ipv4Number, List.mapM_cons, h₄.ipv4Number, List.mapM_nil]
      rfl
    have ha := h₁.lt
    have hb := h₂.lt
    have hc := h₃.lt
    have hd := h₄.lt
    have hok : ([a, b, c].any (255 < ·) || decide (256 ^ (4 - [a, b, c].length) ≤ d)) = false := by
      simp only [List.any_cons, List.any_nil, List.length_cons, List.length_nil]
      simp only [Bool.or_eq_false_iff, decide_eq_false_iff_not, not_lt, not_le]
      exact ⟨⟨by omega, by omega, by omega, trivial⟩, by omega⟩
    rw [parseIpv4, hlabels]
    show ([d₁, d₂, d₃, d₄].mapM ipv4Number).bind (fun numbers ↦ _) = _
    rw [hnumbers]
    show (if ([a, b, c].any (255 < ·) || decide (256 ^ (4 - [a, b, c].length) ≤ d)) = true then none
      else some (ipv4Of ((((0 * 256 + a) * 256 + b) * 256 + c) * 256 ^ 1 + d))) = _
    rw [hok, if_neg Bool.false_ne_true, ipv4Of]
    have hvals : ∀ n, (((0 * 256 + a) * 256 + b) * 256 + c) * 256 ^ 1 + d = n →
        n / 256 / 256 / 256 = a ∧ n / 256 / 256 % 256 = b ∧ n / 256 % 256 = c ∧ n % 256 = d := by
      rintro n rfl
      omega
    obtain ⟨hva, hvb, hvc, hvd⟩ := hvals _ rfl
    have hmod {m k : ℕ} (h : m % 256 = k) (hk : k < 256) : octet m = octet k :=
      Fin.ext (h.trans (Nat.mod_eq_of_lt hk).symm)
    rw [hva, hmod hvb hb, hmod hvc hc, hmod hvd hd]

/-! ### Hosts in plain ASCII -/

theorem percentDecode_of_not_mem {bytes : List UInt8} (h : 37 ∉ bytes) :
    percentDecode bytes = bytes := by
  induction bytes with
  | nil => rfl
  | cons b bytes ih =>
    have hb : b ≠ 37 := fun heq ↦ h (heq ▸ List.mem_cons_self)
    rw [percentDecode.eq_def]
    split
    · next heq => exact absurd (List.cons.inj heq).1 hb
    · next heq =>
      obtain ⟨rfl, rfl⟩ := List.cons.inj heq
      rw [ih fun hmem ↦ h (List.mem_cons_of_mem _ hmem)]
    · next heq => cases heq

/-- An ASCII character is its byte. -/
theorem utf8EncodeChar_ascii {c : Char} (h : c.toNat < 128) :
    String.utf8EncodeChar c = [.ofNat c.toNat] := by
  have hsize : c.utf8Size = 1 := Char.utf8Size_eq_one_iff.2 (by
    rw [UInt32.le_iff_toNat_le]
    exact Nat.le_of_lt_succ h)
  rw [String.utf8EncodeChar_eq_singleton hsize]
  rfl

variable (idna : Idna) {text : List Char}

/-- A host in plain ASCII, outside brackets and without escapes, is decided in lower case. -/
theorem parseHost_ascii (hne : text ≠ []) (hascii : ∀ c ∈ text, c.toNat < 128) (hplain : '%' ∉ text)
    (hbracket : '[' ∉ text) (hpunycode : hasPunycode text = false)
    (hforbidden : (text.map Char.toLower).any forbiddenDomain = false) :
    parseHost idna text =
      if endsInNumber (text.map Char.toLower) then
        (parseIpv4 (text.map Char.toLower)).map .ipv4
      else some (.domain (text.map Char.toLower)) := by
  have hbytes : 37 ∉ Utf8.encode text := by
    intro hmem
    obtain ⟨c, hc, hbyte⟩ := List.mem_flatMap.1 hmem
    rw [utf8EncodeChar_ascii (hascii c hc), List.mem_singleton] at hbyte
    have hnat := congrArg UInt8.toNat hbyte
    have hsmall : c.toNat < UInt8.size := lt_of_lt_of_le (hascii c hc) (by decide)
    rw [UInt8.toNat_ofNat_of_lt' hsmall] at hnat
    have hchar : c = '%' := Char.toNat_inj.1 hnat.symm
    exact hplain (hchar ▸ hc)
  have hdecode : (Utf8.lossy (percentDecode (Utf8.encode text))).toList = text := by
    have hlossy := Utf8.lossy_bytes (.ofList text)
    rw [Utf8.bytes, String.toList_ofList] at hlossy
    rw [percentDecode_of_not_mem hbytes, hlossy, String.toList_ofList]
  have hempty : (text.map Char.toLower).isEmpty = false := by
    rw [List.isEmpty_eq_false_iff]
    exact fun hnil ↦ hne (List.map_eq_nil_iff.1 hnil)
  rw [parseHost.eq_def]
  split
  · exact absurd List.mem_cons_self hbracket
  · rw [hdecode, idna.toAscii_ascii text hne hascii hpunycode]
    show (if (text.map Char.toLower).isEmpty || (text.map Char.toLower).any forbiddenDomain then
      none else _) = _
    rw [hempty, hforbidden]
    rfl

theorem digit_mem {x : Char} (hx : Digits.isDigit 10 x) : x ∈ "0123456789".toList := by
  obtain ⟨n, hn⟩ := Option.isSome_iff_exists.1 hx
  rw [toDigit, Option.ite_none_right_eq_some] at hn
  have hrange : '0' ≤ x ∧ x ≤ '9' := by
    by_contra hno
    have hlt := hn.1
    rw [if_neg hno] at hlt
    split at hlt
    · omega
    · split at hlt <;> omega
  have hlower : 48 ≤ x.toNat := hrange.1
  have hupper : x.toNat ≤ 57 := hrange.2
  have hall : ∀ n, 48 ≤ n → n ≤ 57 → Char.ofNat n ∈ "0123456789".toList := by
    intro n h₁ h₂
    interval_cases n <;> decide
  have := hall x.toNat hlower hupper
  rwa [Char.ofNat_toNat] at this

/-- A character that the host parser takes as it is, but for its case. -/
def isPlain (x : Char) : Bool :=
  decide (x.toNat < 128) && !decide (x = '%') && !decide (x = '[') && !forbiddenDomain x

theorem isPlain_iff {x : Char} :
    isPlain x ↔ x.toNat < 128 ∧ x ≠ '%' ∧ x ≠ '[' ∧ forbiddenDomain x = false := by
  rw [isPlain, Bool.and_eq_true, Bool.and_eq_true, Bool.and_eq_true, decide_eq_true_eq,
    Bool.not_eq_true', Bool.not_eq_true', Bool.not_eq_true', decide_eq_false_iff_not,
    decide_eq_false_iff_not, and_assoc, and_assoc]

/-- **A dotted address is that address to the host parser.** -/
theorem parseHost_of_parse {ip : Ipv4Addr} (h : IpAddr.parse text = some (.v4 ip)) :
    parseHost idna text = some (.ipv4 ip) := by
  obtain ⟨d₁, d₂, d₃, d₄, a, b, c, d, htext, h₁, h₂, h₃, h₄, rfl⟩ := octets_of_parse h
  have hchars : ∀ x ∈ text, x ∈ "0123456789.".toList := by
    have hdigit {x : Char} {d : List Char} {n : ℕ} (hd : IsOctet d n) (hx : x ∈ d) :
        x ∈ "0123456789.".toList :=
      (show "0123456789".toList ⊆ "0123456789.".toList by decide) (digit_mem (hd.isDigit x hx))
    intro x hx
    rw [htext] at hx
    simp only [List.mem_append, List.mem_cons] at hx
    rcases hx with hx | rfl | hx | rfl | hx | rfl | hx
    · exact hdigit h₁ hx
    · decide
    · exact hdigit h₂ hx
    · decide
    · exact hdigit h₃ hx
    · decide
    · exact hdigit h₄ hx
  have hlower : text.map Char.toLower = text := by
    refine (List.map_congr_left fun x hx ↦ ?_).trans (List.map_id text)
    have hall : "0123456789.".toList.all fun x ↦ x.toLower == x := by decide
    exact beq_iff_eq.1 (List.all_eq_true.1 hall x (hchars x hx))
  have hpunycode : hasPunycode text = false := by
    have hlabel {d : List Char} {n : ℕ} (hd : IsOctet d n) :
        "xn--".toList.isPrefixOf d = false := by
      rcases d with - | ⟨x, d⟩
      · rfl
      · have hx : ('x' == x) = false := by
          rw [beq_eq_false_iff_ne]
          rintro rfl
          exact absurd (hd.isDigit 'x' List.mem_cons_self) (by decide)
        show ('x' == x && _) = false
        rw [hx, Bool.false_and]
    rw [hasPunycode, hlower, htext, labels_octets h₁ h₂ h₃ h₄]
    simp only [List.any_cons, hlabel h₁, hlabel h₂, hlabel h₃, hlabel h₄, List.any_nil,
      Bool.or_false]
  have hne : text ≠ [] := by
    rw [htext]
    exact fun hnil ↦ h₁.ne_nil (List.append_eq_nil_iff.1 hnil).1
  have hplain : ∀ x ∈ text, x.toNat < 128 ∧ x ≠ '%' ∧ x ≠ '[' ∧ forbiddenDomain x = false := by
    have hall : "0123456789.".toList.all isPlain := by decide
    exact fun x hx ↦ isPlain_iff.1 (List.all_eq_true.1 hall x (hchars x hx))
  obtain ⟨hends, hparse⟩ := parseIpv4_octets h₁ h₂ h₃ h₄
  rw [parseHost_ascii idna hne (fun x hx ↦ (hplain x hx).1)
    (fun hmem ↦ (hplain _ hmem).2.1 rfl) (fun hmem ↦ (hplain _ hmem).2.2.1 rfl) hpunycode ?_,
    hlower, htext, hends, if_pos rfl, hparse]
  · rfl
  · rw [hlower, List.any_eq_false]
    intro x hx
    rw [(hplain x hx).2.2.2]
    exact Bool.false_ne_true

/-- **A plain name is that name to the host parser**, in lower case. -/
theorem parseHost_of_name {name : List Char} (hname : text.map Char.toLower = name)
    (hall : name.all isPlain) (hne : name ≠ [])
    (hpunycode : (name.splitOn '.').any ("xn--".toList.isPrefixOf ·) = false)
    (hends : endsInNumber name = false) : parseHost idna text = some (.domain name) := by
  have hplain : ∀ x ∈ name, x.toNat < 128 ∧ x ≠ '%' ∧ x ≠ '[' ∧ forbiddenDomain x = false :=
    fun x hx ↦ isPlain_iff.1 (List.all_eq_true.1 hall x hx)
  have hlower {x : Char} (hx : x ∈ text) : x.toLower ∈ name := by
    rw [← hname]
    exact List.mem_map_of_mem hx
  rw [parseHost_ascii idna ?_ ?_ ?_ ?_ ?_ ?_, hname, hends]
  · rfl
  · rintro rfl
    exact hne hname.symm
  · intro x hx
    have hsmall := (hplain _ (hlower hx)).1
    by_contra hlarge
    have hsame : x.toLower = x := by
      refine dif_neg ?_
      rintro ⟨-, hupper⟩
      have : x.toNat ≤ 90 := UInt32.le_iff_toNat_le.1 hupper
      omega
    rw [hsame] at hsmall
    exact hlarge hsmall
  · exact fun hmem ↦ (hplain _ (hlower hmem)).2.1 rfl
  · exact fun hmem ↦ (hplain _ (hlower hmem)).2.2.1 rfl
  · rw [hasPunycode, hname]
    exact hpunycode
  · rw [hname, List.any_eq_false]
    intro x hx
    rw [(hplain x hx).2.2.2]
    exact Bool.false_ne_true

end Url

end Himadri
