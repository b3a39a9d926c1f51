import Himadri.Core.Lines

/-!
# Glob languages

A pattern over an alphabet with a letter that stands for any word. Its language is read off the
pattern letter by letter (`Expands`), and again off the pattern split at the stars (`Segments`),
which is how matchers read it: the first segment at the start of the word, the last at its end, and
those between anywhere in their order. For these the leftmost occurrence is as good as any
(`follows_cons_of_leftmost`).
-/

namespace Glob

variable {α : Type*}

/-- The language of a pattern: each star replaced by any word, everything else kept. -/
inductive Expands (star : α) : List α → List α → Prop
  | nil : Expands star [] []
  | star (run : List α) {pattern word : List α} (h : Expands star pattern word) :
    Expands star (star :: pattern) (run ++ word)
  | letter {a : α} (ha : a ≠ star) {pattern word : List α} (h : Expands star pattern word) :
    Expands star (a :: pattern) (a :: word)

/-- The words that are the segments in their order, with any words in between. -/
def Segments : List (List α) → List α → Prop
  | [], _ => False
  | [segment], word => word = segment
  | segment :: segments, word =>
    ∃ run rest, word = segment ++ (run ++ rest) ∧ Segments segments rest

/-- The words that end in the segments. -/
def Follows (segments : List (List α)) (word : List α) : Prop :=
  ∃ run rest, word = run ++ rest ∧ Segments segments rest

section Segments

variable {a : α} {segment word rest : List α} {segments : List (List α)}

theorem segments_cons (h : segments ≠ []) :
    Segments (segment :: segments) word ↔
      ∃ rest, word = segment ++ rest ∧ Follows segments rest := by
  obtain ⟨s, segments, rfl⟩ := List.exists_cons_of_ne_nil h
  constructor
  · rintro ⟨run, rest, rfl, hrest⟩
    exact ⟨run ++ rest, rfl, run, rest, rfl, hrest⟩
  · rintro ⟨_, rfl, run, rest, rfl, hrest⟩
    exact ⟨run, rest, rfl, hrest⟩

/-- A letter in front of the first segment. -/
theorem segments_letter {segments : List (List α)} (h : segments ≠ []) :
    Segments (segments.modifyHead (a :: ·)) word ↔
      ∃ rest, word = a :: rest ∧ Segments segments rest := by
  obtain ⟨segment, segments, rfl⟩ := List.exists_cons_of_ne_nil h
  rw [List.modifyHead_cons]
  rcases segments with - | ⟨s, segments⟩
  · exact ⟨fun heq ↦ ⟨segment, heq, rfl⟩, fun ⟨_, hword, hrest⟩ ↦ by rw [hword, hrest]; rfl⟩
  · rw [segments_cons (List.cons_ne_nil _ _)]
    constructor
    · rintro ⟨rest, rfl, hrest⟩
      exact ⟨segment ++ rest, rfl, (segments_cons (List.cons_ne_nil _ _)).2 ⟨rest, rfl, hrest⟩⟩
    · rintro ⟨_, rfl, hrest⟩
      obtain ⟨rest, rfl, hfollows⟩ := (segments_cons (List.cons_ne_nil _ _)).1 hrest
      exact ⟨rest, rfl, hfollows⟩

/-- The language of a pattern is that of its segments. -/
theorem expands_iff_segments [DecidableEq α] {star : α} {pattern : List α} (word : List α) :
    Expands star pattern word ↔ Segments (pattern.splitOn star) word := by
  induction pattern generalizing word with
  | nil => exact ⟨fun h ↦ by cases h; rfl, fun h ↦ by rw [show word = [] from h]; exact .nil⟩
  | cons a pattern ih =>
    by_cases ha : a = star
    · subst ha
      rw [Lines.splitOn_cons_self, segments_cons (List.splitOn_ne_nil _ _)]
      constructor
      · rintro (- | ⟨run, h⟩ | ⟨ha, -⟩)
        · exact ⟨_, rfl, run, _, rfl, (ih _).1 h⟩
        · exact absurd rfl ha
      · rintro ⟨_, rfl, run, rest, rfl, hrest⟩
        exact .star run ((ih rest).2 hrest)
    · rw [Lines.splitOn_cons_of_ne ha, segments_letter (List.splitOn_ne_nil _ _)]
      constructor
      · rintro (- | - | ⟨-, h⟩)
        · exact absurd rfl ha
        · exact ⟨_, rfl, (ih _).1 h⟩
      · rintro ⟨rest, rfl, hrest⟩
        exact .letter ha ((ih rest).2 hrest)

/-- A segment alone is matched at the end. -/
theorem follows_singleton : Follows [segment] word ↔ segment <:+ word := by
  constructor
  · rintro ⟨run, rest, rfl, rfl⟩
    exact List.suffix_append run rest
  · rintro ⟨run, rfl⟩
    exact ⟨run, segment, rfl, rfl⟩

theorem Follows.append_left (h : Follows segments word) (run : List α) :
    Follows segments (run ++ word) := by
  obtain ⟨run', rest, rfl, hrest⟩ := h
  exact ⟨run ++ run', rest, (List.append_assoc run run' rest).symm, hrest⟩

theorem follows_cons (h : segments ≠ []) :
    Follows (segment :: segments) word ↔
      ∃ run rest, word = run ++ (segment ++ rest) ∧ Follows segments rest := by
  constructor
  · rintro ⟨run, rest, rfl, hrest⟩
    obtain ⟨rest, rfl, hfollows⟩ := (segments_cons h).1 hrest
    exact ⟨run, rest, rfl, hfollows⟩
  · rintro ⟨run, rest, rfl, hfollows⟩
    exact ⟨run, segment ++ rest, rfl, (segments_cons h).2 ⟨rest, rfl, hfollows⟩⟩

/-- An empty segment after a star says nothing. -/
theorem follows_nil_cons (h : segments ≠ []) : Follows ([] :: segments) word ↔
    Follows segments word := by
  rw [follows_cons h]
  constructor
  · rintro ⟨run, rest, rfl, hfollows⟩
    exact hfollows.append_left run
  · exact fun hfollows ↦ ⟨[], word, rfl, hfollows⟩

/-- What is left after the leftmost occurrence of a segment ends in what any occurrence leaves. -/
theorem follows_cons_of_leftmost (h : segments ≠ []) {before : List α}
    (hword : word = before ++ (segment ++ rest))
    (hleft : ∀ run rest', word = run ++ (segment ++ rest') → rest' <:+ rest) :
    Follows (segment :: segments) word ↔ Follows segments rest := by
  rw [follows_cons h]
  constructor
  · rintro ⟨run, rest', heq, hfollows⟩
    obtain ⟨more, rfl⟩ := hleft run rest' heq
    exact hfollows.append_left more
  · exact fun hfollows ↦ ⟨before, rest, hword, hfollows⟩

end Segments

end Glob
