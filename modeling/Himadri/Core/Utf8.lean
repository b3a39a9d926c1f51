import Mathlib.Tactic.Common

/-!
# UTF-8

The bytes of a text, character by character, and the text of bytes: where they are valid, or with
replacement characters where they are not.
-/

namespace Utf8

/-- The bytes of the characters. -/
def encode (text : List Char) : List UInt8 := text.flatMap String.utf8EncodeChar

/-- The bytes of a text. -/
def bytes (s : String) : List UInt8 := encode s.toList

/-- The text of valid bytes. -/
def fromUtf8 (bytes : List UInt8) : Option String := String.fromUTF8? bytes.toByteArray

theorem toByteArray_bytes (s : String) : (bytes s).toByteArray = s.toByteArray := by
  rw [← String.utf8Encode_toList, List.utf8Encode]
  rfl

theorem fromUtf8_bytes (s : String) : fromUtf8 (bytes s) = some s := by
  have hvalid : s.toByteArray.IsValidUTF8 := s.isValidUTF8
  rw [fromUtf8, toByteArray_bytes, String.fromUTF8?, dif_pos hvalid]
  rfl

theorem fromUtf8_eq_some {b : List UInt8} {s : String} : fromUtf8 b = some s ↔ bytes s = b := by
  constructor
  · intro h
    rw [fromUtf8, String.fromUTF8?, Option.dite_none_right_eq_some] at h
    obtain ⟨hvalid, heq⟩ := h
    have hbytes : (bytes s).toByteArray = b.toByteArray := by
      rw [toByteArray_bytes, ← Option.some.inj heq]
      rfl
    have hlist := congrArg (fun a ↦ a.data.toList) hbytes
    rwa [List.toList_data_toByteArray, List.toList_data_toByteArray] at hlist
  · rintro rfl
    exact fromUtf8_bytes s

theorem length_le_encode (text : List Char) : text.length ≤ (encode text).length := by
  induction text with
  | nil => exact Nat.le_refl 0
  | cons c text ih =>
    have hc : 0 < (String.utf8EncodeChar c).length :=
      List.length_pos_iff.2 String.utf8EncodeChar_ne_nil
    rw [encode, List.flatMap_cons, List.length_append, List.length_cons]
    rw [encode] at ih
    omega

/-! ### Bytes that are not valid -/

/-- A decoder between two bytes: how many more the sequence needs, between which bounds the next one
lies, and the code point so far. -/
structure Decoder where
  needed : ℕ
  lower : UInt8
  upper : UInt8
  point : ℕ

namespace Decoder

/-- Between two sequences. -/
def idle : Decoder := ⟨0, 0x80, 0xBF, 0⟩

/-- `U+FFFD`. -/
def replacement : Char := .ofNat 0xFFFD

/-- The first byte of a sequence. -/
def start (b : UInt8) : List Char × Decoder :=
  if b < 0x80 then ([.ofNat b.toNat], idle)
  else if 0xC2 ≤ b ∧ b ≤ 0xDF then ([], ⟨1, 0x80, 0xBF, b.toNat % 32⟩)
  else if 0xE0 ≤ b ∧ b ≤ 0xEF then
    ([], ⟨2, if b = 0xE0 then 0xA0 else 0x80, if b = 0xED then 0x9F else 0xBF, b.toNat % 16⟩)
  else if 0xF0 ≤ b ∧ b ≤ 0xF4 then
    ([], ⟨3, if b = 0xF0 then 0x90 else 0x80, if b = 0xF4 then 0x8F else 0xBF, b.toNat % 8⟩)
  else ([replacement], idle)

/-- The next byte; one that does not continue the sequence ends it and begins another. -/
def next (d : Decoder) (b : UInt8) : List Char × Decoder :=
  if d.needed = 0 then start b
  else if d.lower ≤ b ∧ b ≤ d.upper then
    let point := d.point * 64 + b.toNat % 64
    if d.needed = 1 then ([.ofNat point], idle) else ([], ⟨d.needed - 1, 0x80, 0xBF, point⟩)
  else (replacement :: (start b).1, (start b).2)

/-- The rest of the bytes. -/
def run (d : Decoder) : List UInt8 → List Char
  | [] => if d.needed = 0 then [] else [replacement]
  | b :: bytes => (d.next b).1 ++ (d.next b).2.run bytes

end Decoder

/-- `String::from_utf8_lossy`: what does not belong to a character becomes a replacement. -/
def lossy (bytes : List UInt8) : String :=
  match fromUtf8 bytes with
  | some s => s
  | none => .ofList (Decoder.idle.run bytes)

@[simp] theorem lossy_bytes (s : String) : lossy (bytes s) = s := by
  rw [lossy, fromUtf8_bytes]

end Utf8
