import Mathlib.Data.List.DropRight
import Mathlib.Data.List.Infix

/-!
# Strings

The methods of `str` that the development uses, on Lean strings, character by character. At the root
namespace: nothing here belongs to one component.
-/

namespace Text

/-- `char::is_whitespace`: the Unicode property `White_Space`. -/
def isWhitespace (c : Char) : Bool :=
  (9 ≤ c.toNat && c.toNat ≤ 13) || (0x2000 ≤ c.toNat && c.toNat ≤ 0x200A) ||
    [0x20, 0x85, 0xA0, 0x1680, 0x2028, 0x2029, 0x202F, 0x205F, 0x3000].contains c.toNat

/-- `str::trim_end_matches` with a character. -/
def trimEndMatches (c : Char) (s : String) : String := .ofList (s.toList.rdropWhile (· == c))

/-- `str::trim`. -/
def trim (s : String) : String :=
  .ofList ((s.toList.dropWhile isWhitespace).rdropWhile isWhitespace)

/-- `str::contains`. -/
def contains (s part : String) : Bool := decide (part.toList <:+: s.toList)

/-- `str::starts_with`. -/
def startsWith (s part : String) : Bool := part.toList.isPrefixOf s.toList

/-- `str::ends_with`. -/
def endsWith (s part : String) : Bool := part.toList.isSuffixOf s.toList

/-- `str::strip_prefix`. -/
def stripPrefix (s start : String) : Option String :=
  if startsWith s start then some (.ofList (s.toList.drop start.toList.length)) else none

/-- `str::split` on a character. -/
def split (c : Char) (s : String) : List String := (s.toList.splitOn c).map .ofList

/-- `str::split_whitespace`. -/
def splitWhitespace (s : String) : List String :=
  ((s.toList.splitOnP isWhitespace).filter (!·.isEmpty)).map .ofList

/-- `split_csv`: the items between commas, trimmed, without the empty ones. -/
def splitCsv (s : String) : List String := ((split ',' s).map trim).filter (!·.isEmpty)

/-- `str::to_ascii_lowercase`. -/
def toAsciiLowercase (s : String) : String := .ofList (s.toList.map Char.toLower)

theorem toList_toAsciiLowercase (s : String) :
    (toAsciiLowercase s).toList = s.toList.map Char.toLower := String.toList_ofList

/-- `str::to_ascii_uppercase`. -/
def toAsciiUppercase (s : String) : String := .ofList (s.toList.map Char.toUpper)

/-- A URL without what may pad it: surrounding whitespace, and slashes at its end. -/
def trimUrl (s : String) : String :=
  .ofList ((s.toList.rdropWhile fun c ↦ isWhitespace c || c == '/').dropWhile isWhitespace)

theorem dropWhile_of_head? {p : Char → Bool} {l : List Char} (h : ∀ c ∈ l.head?, p c = false) :
    l.dropWhile p = l := by
  rcases l with - | ⟨c, l⟩
  · rfl
  · exact List.dropWhile_cons_of_neg (by rw [h c rfl]; decide)

/-- A text with no whitespace at its ends. -/
theorem trim_eq_self {s : String} (hstart : ∀ c ∈ s.toList.head?, isWhitespace c = false)
    (hend : ∀ c ∈ s.toList.getLast?, isWhitespace c = false) : trim s = s := by
  rw [trim, dropWhile_of_head? hstart, List.rdropWhile_eq_self_iff.2 fun hne ↦ ?_,
    String.ofList_toList]
  rw [hend _ (List.getLast?_eq_some_getLast hne)]
  exact Bool.false_ne_true

/-- A number is written without whitespace. -/
theorem trim_toString (n : ℕ) : trim (toString n) = toString n := by
  have hall : ∀ c ∈ (toString n).toList, isWhitespace c = false := by
    intro c hc
    have hdigit : c.isDigit :=
      Nat.isDigit_of_mem_toDigits (by omega) (by omega) ((Nat.toList_repr (n := n)) ▸ hc)
    have hbounds : 48 ≤ c.toNat ∧ c.toNat ≤ 57 := Char.isDigit_iff_toNat.1 hdigit
    have hother : c.toNat ∉ [0x20, 0x85, 0xA0, 0x1680, 0x2028, 0x2029, 0x202F, 0x205F, 0x3000] := by
      simp only [List.mem_cons, List.not_mem_nil, or_false]
      omega
    rw [isWhitespace, Bool.or_eq_false_iff, Bool.or_eq_false_iff, Bool.and_eq_false_iff,
      Bool.and_eq_false_iff, decide_eq_false_iff_not, decide_eq_false_iff_not,
      decide_eq_false_iff_not, decide_eq_false_iff_not, List.contains_eq_mem,
      decide_eq_false_iff_not]
    exact ⟨⟨by omega, by omega⟩, hother⟩
  exact trim_eq_self (fun c hc ↦ hall c (List.mem_of_mem_head? hc))
    fun c hc ↦ hall c (List.mem_of_mem_getLast? hc)

theorem stripPrefix_eq_some {s start rest : String} :
    stripPrefix s start = some rest ↔ s = start ++ rest := by
  rw [stripPrefix, Option.ite_none_right_eq_some, Option.some_inj]
  constructor
  · rintro ⟨hstarts, rfl⟩
    obtain ⟨tail, htail⟩ := List.isPrefixOf_iff_prefix.1 hstarts
    rw [← String.toList_inj, String.toList_append, String.toList_ofList, ← htail, List.drop_left]
  · rintro rfl
    rw [startsWith, String.toList_append, List.drop_left, String.ofList_toList]
    exact ⟨List.isPrefixOf_iff_prefix.2 (List.prefix_append _ _), rfl⟩

/-! ### Padding -/

section Lists

variable {α : Type*} {p q : α → Bool}

/-- Dropping less from the end first changes nothing. -/
theorem rdropWhile_rdropWhile (h : ∀ a, q a → p a) (l : List α) :
    (l.rdropWhile q).rdropWhile p = l.rdropWhile p := by
  induction l using List.reverseRecOn with
  | nil => rfl
  | append_singleton l a ih =>
    by_cases ha : q a
    · rw [List.rdropWhile_concat_pos _ _ _ ha, List.rdropWhile_concat_pos _ _ _ (h a ha), ih]
    · rw [List.rdropWhile_concat_neg _ _ _ ha]

theorem rdropWhile_cons (a : α) (l : List α) :
    (a :: l).rdropWhile p =
      if (l.rdropWhile p).isEmpty then (if p a then [] else [a]) else a :: l.rdropWhile p := by
  simp only [List.rdropWhile, List.reverse_cons, List.dropWhile_append, List.isEmpty_reverse]
  split
  · by_cases ha : p a <;> simp [ha]
  · simp

/-- What is dropped from the front in the end may be dropped before the end is. -/
theorem dropWhile_rdropWhile_dropWhile (l : List α) :
    ((l.dropWhile q).rdropWhile p).dropWhile q = (l.rdropWhile p).dropWhile q := by
  induction l with
  | nil => rfl
  | cons a l ih =>
    by_cases ha : q a
    · rw [List.dropWhile_cons_of_pos ha, ih, rdropWhile_cons]
      split
      · next hempty =>
        rw [List.isEmpty_iff.1 hempty]
        by_cases hp : p a <;> simp [hp, ha]
      · rw [List.dropWhile_cons_of_pos ha]
    · rw [List.dropWhile_cons_of_neg ha]

end Lists

@[simp] theorem trimUrl_trimEndMatches (s : String) :
    trimUrl (trimEndMatches '/' s) = trimUrl s := by
  rw [trimUrl, trimEndMatches, String.toList_ofList, rdropWhile_rdropWhile]
  · rfl
  · intro c hc
    rw [Bool.or_eq_true]
    exact .inr hc

@[simp] theorem trimUrl_trim (s : String) : trimUrl (trim s) = trimUrl s := by
  rw [trimUrl, trim, String.toList_ofList, rdropWhile_rdropWhile]
  · rw [dropWhile_rdropWhile_dropWhile]
    rfl
  · intro c hc
    rw [Bool.or_eq_true]
    exact .inl hc

end Text
