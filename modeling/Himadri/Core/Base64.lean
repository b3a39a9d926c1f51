import Mathlib.Tactic.Common

/-!
# Base64

The standard alphabet with padding, on lists of bytes. Decoding is strict: it takes only the padding
that encoding writes, and no bits beyond the bytes. What was encoded is decoded (`decode_encode`),
and no text is shorter than what it encodes (`length_le_of_decode`).
-/

namespace Base64

/-- The character of six bits. -/
def sextet (n : ℕ) : Char :=
  if n < 26 then .ofNat ('A'.toNat + n)
  else if n < 52 then .ofNat ('a'.toNat + (n - 26))
  else if n < 62 then .ofNat ('0'.toNat + (n - 52))
  else if n = 62 then '+'
  else '/'

/-- The six bits of a character of the alphabet. -/
def value (c : Char) : Option ℕ := (List.range 64).find? (sextet · == c)

/-- The text of the bytes. -/
def encode : List UInt8 → List Char
  | [] => []
  | [a] => [sextet (a.toNat / 4), sextet (a.toNat % 4 * 16), '=', '=']
  | [a, b] =>
    [sextet (a.toNat / 4), sextet (a.toNat % 4 * 16 + b.toNat / 16), sextet (b.toNat % 16 * 4), '=']
  | a :: b :: c :: bytes =>
    sextet (a.toNat / 4) :: sextet (a.toNat % 4 * 16 + b.toNat / 16) ::
      sextet (b.toNat % 16 * 4 + c.toNat / 64) :: sextet (c.toNat % 64) :: encode bytes

/-- The bytes of a last group, which is padded. -/
def decodePadded (w x y : Char) : Option (List UInt8) := do
  let a ← value w
  let b ← value x
  if y = '=' then
    if b % 16 = 0 then some [.ofNat (a * 4 + b / 16)] else none
  else do
    let c ← value y
    if c % 4 = 0 then some [.ofNat (a * 4 + b / 16), .ofNat (b % 16 * 16 + c / 4)] else none

/-- The bytes of the text. -/
def decode : List Char → Option (List UInt8)
  | [] => some []
  | w :: x :: y :: z :: text =>
    if z = '=' then
      if text = [] then decodePadded w x y else none
    else do
      let a ← value w
      let b ← value x
      let c ← value y
      let d ← value z
      let bytes ← decode text
      return .ofNat (a * 4 + b / 16) :: .ofNat (b % 16 * 16 + c / 4) ::
        .ofNat (c % 4 * 64 + d) :: bytes
  | _ => none

theorem value_sextet {n : ℕ} (h : n < 64) : value (sextet n) = some n := by
  have hall : ∀ n < 64, value (sextet n) = some n := by decide
  exact hall n h

theorem sextet_ne {n : ℕ} (h : n < 64) : sextet n ≠ '=' := by
  have hall : ∀ n < 64, sextet n ≠ '=' := by decide
  exact hall n h

/-- A byte from the number it is. -/
theorem ofNat_eq {n : ℕ} {a : UInt8} (h : n = a.toNat) : UInt8.ofNat n = a := by
  rw [h]
  exact UInt8.ofNat_toNat

/-- **What was encoded is decoded.** -/
theorem decode_encode (bytes : List UInt8) : decode (encode bytes) = some bytes := by
  induction bytes using encode.induct with
  | case1 => rfl
  | case2 a =>
    have ha := a.toNat_lt
    have hx : a.toNat % 4 * 16 % 16 = 0 := by omega
    show decodePadded (sextet (a.toNat / 4)) (sextet (a.toNat % 4 * 16)) '=' = _
    simp only [decodePadded, value_sextet (show a.toNat / 4 < 64 by omega),
      value_sextet (show a.toNat % 4 * 16 < 64 by omega), Option.bind_eq_bind, Option.bind_some,
      if_pos, hx]
    rw [ofNat_eq (show a.toNat / 4 * 4 + a.toNat % 4 * 16 / 16 = a.toNat by omega)]
  | case3 a b =>
    have ha := a.toNat_lt
    have hb := b.toNat_lt
    have hy : b.toNat % 16 * 4 % 4 = 0 := by omega
    show decodePadded (sextet (a.toNat / 4)) (sextet (a.toNat % 4 * 16 + b.toNat / 16))
      (sextet (b.toNat % 16 * 4)) = _
    simp only [decodePadded, value_sextet (show a.toNat / 4 < 64 by omega),
      value_sextet (show a.toNat % 4 * 16 + b.toNat / 16 < 64 by omega),
      value_sextet (show b.toNat % 16 * 4 < 64 by omega), Option.bind_eq_bind, Option.bind_some,
      if_neg (sextet_ne (show b.toNat % 16 * 4 < 64 by omega)), if_pos, hy]
    rw [ofNat_eq (show a.toNat / 4 * 4 + (a.toNat % 4 * 16 + b.toNat / 16) / 16 = a.toNat by omega),
      ofNat_eq (show (a.toNat % 4 * 16 + b.toNat / 16) % 16 * 16 + b.toNat % 16 * 4 / 4 = b.toNat by
        omega)]
  | case4 a b c bytes ih =>
    have ha := a.toNat_lt
    have hb := b.toNat_lt
    have hc := c.toNat_lt
    rw [encode, decode, if_neg (sextet_ne (show c.toNat % 64 < 64 by omega))]
    simp only [value_sextet (show a.toNat / 4 < 64 by omega),
      value_sextet (show a.toNat % 4 * 16 + b.toNat / 16 < 64 by omega),
      value_sextet (show b.toNat % 16 * 4 + c.toNat / 64 < 64 by omega),
      value_sextet (show c.toNat % 64 < 64 by omega), ih, Option.bind_eq_bind, Option.bind_some]
    rw [ofNat_eq (show a.toNat / 4 * 4 + (a.toNat % 4 * 16 + b.toNat / 16) / 16 = a.toNat by omega),
      ofNat_eq (show (a.toNat % 4 * 16 + b.toNat / 16) % 16 * 16 +
        (b.toNat % 16 * 4 + c.toNat / 64) / 4 = b.toNat by omega),
      ofNat_eq (show (b.toNat % 16 * 4 + c.toNat / 64) % 4 * 64 + c.toNat % 64 = c.toNat by omega)]
    rfl

theorem length_le_of_decodePadded {w x y : Char} {bytes : List UInt8}
    (h : decodePadded w x y = some bytes) : bytes.length ≤ 4 := by
  simp only [decodePadded, Option.bind_eq_bind, Option.bind_eq_some_iff] at h
  obtain ⟨a, -, b, -, h⟩ := h
  split at h
  · split at h
    · cases h
      show 1 ≤ 4
      omega
    · cases h
  · rw [Option.bind_eq_some_iff] at h
    obtain ⟨c, -, h⟩ := h
    split at h
    · cases h
      show 2 ≤ 4
      omega
    · cases h

/-- **No text is shorter than what it encodes.** -/
theorem length_le_of_decode {text : List Char} {bytes : List UInt8} (h : decode text = some bytes) :
    bytes.length ≤ text.length := by
  induction text using decode.induct generalizing bytes with
  | case1 =>
    cases h
    exact Nat.le_refl 0
  | case2 w x y =>
    rw [decode, if_pos rfl, if_pos rfl] at h
    exact length_le_of_decodePadded h
  | case3 w x y text htext =>
    rw [decode, if_pos rfl, if_neg htext] at h
    cases h
  | case4 w x y z text hz ih =>
    rw [decode, if_neg hz] at h
    simp only [Option.bind_eq_bind, Option.bind_eq_some_iff] at h
    obtain ⟨a, -, b, -, c, -, d, -, rest, hrest, h⟩ := h
    cases h
    have hle := ih hrest
    show rest.length + 3 ≤ text.length + 4
    omega
  | case5 text hnil hgroup =>
    rw [decode] at h
    · cases h
    · exact hnil
    · exact hgroup

theorem length_le_encode (bytes : List UInt8) : bytes.length ≤ (encode bytes).length :=
  length_le_of_decode (decode_encode bytes)

end Base64
