import Mathlib.Data.List.Basic
import Mathlib.Tactic.Common

/-!
# Lines of a text that arrives in parts

The pieces between separators of a list, without the last one, which no separator has ended yet, and
that last one. A list that arrives in parts has the pieces of each part, the first of them begun by
what the part before left (`complete_append`, `rest_append`).
-/

namespace Lines

variable {α : Type*} [DecidableEq α] (sep : α)

/-- The pieces that a separator ends. -/
def complete (l : List α) : List (List α) := (l.splitOn sep).dropLast

/-- What comes after the last separator. -/
def rest (l : List α) : List α := (l.splitOn sep).getLastD []

variable {sep} {a : α}

theorem splitOn_eq (l : List α) : l.splitOn sep = complete sep l ++ [rest sep l] := by
  rw [complete, rest, List.getLastD_eq_getLast?, List.getLast?_eq_some_getLast
    (List.splitOn_ne_nil sep l), Option.getD_some, List.dropLast_append_getLast]

/-- The two are known from the pieces of the list. -/
theorem eq_of_splitOn {l t : List α} {s : List (List α)} (h : l.splitOn sep = s ++ [t]) :
    complete sep l = s ∧ rest sep l = t := by
  rw [complete, rest, h, List.dropLast_concat, List.getLastD_concat]
  exact ⟨rfl, rfl⟩

theorem splitOn_cons_self (l : List α) : (sep :: l).splitOn sep = [] :: l.splitOn sep := by
  rw [List.splitOn_cons_eq_if_modifyHead, if_pos (beq_self_eq_true sep)]

theorem splitOn_cons_of_ne (ha : a ≠ sep) (l : List α) :
    (a :: l).splitOn sep = (l.splitOn sep).modifyHead (a :: ·) := by
  rw [List.splitOn_cons_eq_if_modifyHead, if_neg (by rwa [beq_iff_eq])]

theorem cons_self (l : List α) :
    complete sep (sep :: l) = [] :: complete sep l ∧ rest sep (sep :: l) = rest sep l :=
  eq_of_splitOn (by rw [splitOn_cons_self, splitOn_eq l, List.cons_append])

theorem cons_of_ne (ha : a ≠ sep) (l : List α) :
    complete sep (a :: l) = (complete sep l).modifyHead (a :: ·) ∧
      rest sep (a :: l) = if complete sep l = [] then a :: rest sep l else rest sep l := by
  refine eq_of_splitOn ?_
  rw [splitOn_cons_of_ne ha, splitOn_eq l]
  rcases complete sep l with - | ⟨line, lines⟩
  · rfl
  · rfl

/-- A piece without separators that another list follows begins the first piece. -/
theorem splitOn_append_of_notMem {a : List α} (h : sep ∉ a) (b : List α) :
    (a ++ b).splitOn sep = (b.splitOn sep).modifyHead (a ++ ·) := by
  induction a with
  | nil => exact (congrFun List.modifyHead_id (b.splitOn sep)).symm
  | cons x a ih =>
    obtain ⟨hx, ha⟩ := List.ne_and_not_mem_of_not_mem_cons h
    rw [List.cons_append, splitOn_cons_of_ne (Ne.symm hx), ih ha, List.modifyHead_modifyHead]
    rfl

/-- A piece and the separator that ends it. -/
theorem splitOn_piece {a : List α} (h : sep ∉ a) (b : List α) :
    (a ++ sep :: b).splitOn sep = a :: b.splitOn sep := by
  rw [splitOn_append_of_notMem h, splitOn_cons_self, List.modifyHead_cons, List.append_nil]

theorem complete_piece {a : List α} (h : sep ∉ a) (b : List α) :
    complete sep (a ++ sep :: b) = a :: complete sep b := by
  refine (eq_of_splitOn (t := rest sep b) ?_).1
  rw [splitOn_piece h, splitOn_eq b, List.cons_append]

/-- No separator is in the rest. -/
theorem notMem_rest (l : List α) : sep ∉ rest sep l := by
  induction l with
  | nil => exact List.not_mem_nil
  | cons x l ih =>
    by_cases hx : x = sep
    · rw [hx, (cons_self l).2]
      exact ih
    · rw [(cons_of_ne hx l).2]
      split
      · exact List.not_mem_cons_of_ne_of_not_mem (Ne.symm hx) ih
      · exact ih

theorem splitOn_append (a b : List α) :
    (a ++ b).splitOn sep = complete sep a ++ (rest sep a ++ b).splitOn sep := by
  induction a with
  | nil => rfl
  | cons x a ih =>
    rw [List.cons_append]
    by_cases hx : x = sep
    · rw [hx, (cons_self a).1, (cons_self a).2, splitOn_cons_self, ih, List.cons_append]
    · rw [(cons_of_ne hx a).1, (cons_of_ne hx a).2, splitOn_cons_of_ne hx, ih]
      rcases complete sep a with - | ⟨line, lines⟩
      · exact (splitOn_cons_of_ne hx _).symm
      · rfl

theorem complete_append (a b : List α) :
    complete sep (a ++ b) = complete sep a ++ complete sep (rest sep a ++ b) := by
  refine (eq_of_splitOn (t := rest sep (rest sep a ++ b)) ?_).1
  rw [splitOn_append, splitOn_eq (rest sep a ++ b), List.append_assoc]

theorem rest_append (a b : List α) : rest sep (a ++ b) = rest sep (rest sep a ++ b) := by
  refine (eq_of_splitOn (s := complete sep a ++ complete sep (rest sep a ++ b)) ?_).2
  rw [splitOn_append, splitOn_eq (rest sep a ++ b), List.append_assoc]

/-- What a part leaves begins one of the pieces of the whole. -/
theorem exists_rest_append_mem (a b : List α) : ∃ t, rest sep a ++ t ∈ (a ++ b).splitOn sep := by
  rw [splitOn_append, splitOn_append_of_notMem (notMem_rest a)]
  rcases hb : b.splitOn sep with - | ⟨t, lines⟩
  · exact absurd hb (List.splitOn_ne_nil sep b)
  · exact ⟨t, List.mem_append_right _ List.mem_cons_self⟩

end Lines
