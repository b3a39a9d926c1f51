import Mathlib.Data.List.Perm.Basic
import Mathlib.Order.Lattice
import Mathlib.Tactic.Common

/-!
# First occurrences, sorting by a measure, and writes by index

Filtering a list to the first element of each key, as a `HashSet::insert` inside a `filter` does,
stable sorting by a measure, finding an element after it was updated in place, when two filters keep
the same elements, and writes to elements by indices that were taken from the list. At the root
namespace: nothing here belongs to one component.
-/

namespace Lists

variable {α κ : Type*} [DecidableEq κ] (key : α → κ)

/-- Keep the elements whose key is not in `seen` and did not come earlier. -/
def firstBy (seen : List κ) : List α → List α
  | [] => []
  | a :: l => if key a ∈ seen then firstBy seen l else a :: firstBy (key a :: seen) l

variable {key}

theorem firstBy_sublist (seen : List κ) (l : List α) : (firstBy key seen l).Sublist l := by
  induction l generalizing seen with
  | nil => exact .refl _
  | cons a l ih =>
    rw [firstBy]
    split
    · exact (ih seen).cons a
    · exact (ih _).cons_cons a

theorem firstBy_cons (a : α) (l : List α) :
    firstBy key [] (a :: l) = a :: firstBy key [key a] l := if_neg List.not_mem_nil

theorem firstBy_of_mem {seen : List κ} {a : α} {l : List α} (h : key a ∈ seen) :
    firstBy key seen (a :: l) = firstBy key seen l := if_pos h

theorem firstBy_of_notMem {seen : List κ} {a : α} {l : List α} (h : key a ∉ seen) :
    firstBy key seen (a :: l) = a :: firstBy key (key a :: seen) l := if_neg h

/-- The first element of each key, in the order of the list. -/
structure FirstsOf (key : α → κ) (l firsts : List α) : Prop where
  sublist : firsts.Sublist l
  nodup : (firsts.map key).Nodup
  first : ∀ front a back, l = front ++ a :: back → key a ∉ front.map key → a ∈ firsts

/-- Every key of the list is there. -/
theorem FirstsOf.complete {l firsts : List α} (h : FirstsOf key l firsts) {a : α} (ha : a ∈ l) :
    key a ∈ firsts.map key := by
  obtain ⟨b, hb⟩ : ∃ b, l.find? (fun b ↦ decide (key b = key a)) = some b :=
    Option.isSome_iff_exists.1 (List.find?_isSome.2 ⟨a, ha, decide_eq_true rfl⟩)
  obtain ⟨hkey, front, back, heq, hfront⟩ := List.find?_eq_some_iff_append.1 hb
  rw [← of_decide_eq_true hkey]
  refine List.mem_map_of_mem (h.first front b back heq fun hmem ↦ ?_)
  obtain ⟨c, hc, hcb⟩ := List.mem_map.1 hmem
  have hne := hfront c hc
  rw [hcb, hkey] at hne
  cases hne

theorem notMem_firstBy {seen : List κ} {k : κ} (hk : k ∈ seen) (l : List α) :
    k ∉ (firstBy key seen l).map key := by
  induction l generalizing seen with
  | nil => exact List.not_mem_nil
  | cons a l ih =>
    by_cases ha : key a ∈ seen
    · rw [firstBy_of_mem ha]
      exact ih hk
    · rw [firstBy_of_notMem ha, List.map_cons, List.mem_cons, not_or]
      exact ⟨fun heq ↦ ha (heq ▸ hk), ih (List.mem_cons_of_mem _ hk)⟩

theorem nodup_firstBy (seen : List κ) (l : List α) : ((firstBy key seen l).map key).Nodup := by
  induction l generalizing seen with
  | nil => exact List.nodup_nil
  | cons a l ih =>
    by_cases ha : key a ∈ seen
    · rw [firstBy_of_mem ha]
      exact ih seen
    · rw [firstBy_of_notMem ha, List.map_cons, List.nodup_cons]
      exact ⟨notMem_firstBy List.mem_cons_self l, ih _⟩

theorem mem_firstBy {seen : List κ} (front : List α) {a : α} {back : List α}
    (hfront : key a ∉ front.map key) (hseen : key a ∉ seen) :
    a ∈ firstBy key seen (front ++ a :: back) := by
  induction front generalizing seen with
  | nil =>
    rw [List.nil_append, firstBy_of_notMem hseen]
    exact List.mem_cons_self
  | cons b front ih =>
    rw [List.map_cons, List.mem_cons, not_or] at hfront
    by_cases hb : key b ∈ seen
    · rw [List.cons_append, firstBy_of_mem hb]
      exact ih hfront.2 hseen
    · rw [List.cons_append, firstBy_of_notMem hb]
      refine List.mem_cons_of_mem _ (ih hfront.2 ?_)
      rw [List.mem_cons, not_or]
      exact ⟨hfront.1, hseen⟩

theorem firstsOf_firstBy (l : List α) : FirstsOf key l (firstBy key [] l) where
  sublist := firstBy_sublist [] l
  nodup := nodup_firstBy [] l
  first front _ _ heq hfront := heq ▸ mem_firstBy front hfront List.not_mem_nil

/-- A key that was seen is as good as filtered out. -/
theorem firstBy_eq_filter {k : κ} {seen seen' : List κ} (h : ∀ x, x ∈ seen' ↔ x = k ∨ x ∈ seen)
    (l : List α) :
    firstBy key seen' l = firstBy key seen (l.filter fun a ↦ decide (key a ≠ k)) := by
  induction l generalizing seen seen' with
  | nil => rfl
  | cons a l ih =>
    by_cases hak : key a = k
    · rw [firstBy_of_mem ((h _).2 (.inl hak)), List.filter_cons_of_neg (by simp [hak]), ih h]
    rw [List.filter_cons_of_pos (by simp [hak])]
    by_cases ha : key a ∈ seen
    · rw [firstBy_of_mem ((h _).2 (.inr ha)), firstBy_of_mem ha, ih h]
    · rw [firstBy_of_notMem ha, firstBy_of_notMem fun hmem ↦ ((h _).1 hmem).elim hak ha]
      refine congrArg (a :: ·) (ih fun x ↦ ?_)
      rw [List.mem_cons, List.mem_cons, h, or_left_comm]

/-! ### Sorting by a measure -/

section Measure

variable {ι : Type*} [LinearOrder ι] (f : α → ι)

/-- Sorted by a measure, with elements of one measure in the order of the list. -/
def SortedBy (l sorted : List α) : Prop :=
  sorted.Pairwise (f · ≤ f ·) ∧
    ∀ p : α → Bool, (∀ a b, p a = true → p b = true → f a = f b) → (sorted.filter p).Sublist l

theorem sortedBy_mergeSort {le : α → α → Bool} (hle : ∀ a b, le a b = true ↔ f a ≤ f b)
    (l : List α) : SortedBy f l (l.mergeSort le) := by
  have htrans (a b c : α) (hab : le a b = true) (hbc : le b c = true) : le a c = true :=
    (hle a c).2 (le_trans ((hle a b).1 hab) ((hle b c).1 hbc))
  have htotal (a b : α) : (le a b || le b a) = true := by
    rw [Bool.or_eq_true, hle, hle]
    exact le_total (f a) (f b)
  constructor
  · exact (List.pairwise_mergeSort htrans htotal l).imp fun {a b} h ↦ (hle a b).1 h
  · intro p hp
    -- the elements of one measure are sorted already, so the sort keeps their order
    have hsame : (l.filter p).Pairwise (fun a b ↦ le a b = true) := by
      refine List.pairwise_of_forall_mem_list fun a ha b hb ↦ (hle a b).2 (le_of_eq ?_)
      exact hp a b (List.mem_filter.1 ha).2 (List.mem_filter.1 hb).2
    have hkept := (List.sublist_mergeSort htrans htotal hsame List.filter_sublist).filter p
    rw [List.filter_filter] at hkept
    simp only [Bool.and_self] at hkept
    have hlength := ((List.mergeSort_perm l le).filter p).length_eq
    rw [← hkept.eq_of_length hlength.symm]
    exact List.filter_sublist

variable {f}

theorem SortedBy.sublist {l sorted sub : List α} (h : SortedBy f l sorted)
    (hsub : sub.Sublist sorted) : SortedBy f l sub :=
  ⟨h.1.sublist hsub, fun p hp ↦ (hsub.filter p).trans (h.2 p hp)⟩

end Measure

/-- Of two members of a list one stands before the other. -/
theorem pair_sublist_or {l : List α} {a b : α} (ha : a ∈ l) (hb : b ∈ l)
    (hne : a ≠ b) : [a, b].Sublist l ∨ [b, a].Sublist l := by
  induction l with
  | nil => exact absurd ha List.not_mem_nil
  | cons c l ih =>
    rcases List.mem_cons.1 ha with rfl | ha'
    · have hb' : b ∈ l := (List.mem_cons.1 hb).resolve_left hne.symm
      exact .inl ((List.singleton_sublist.2 hb').cons_cons a)
    · rcases List.mem_cons.1 hb with rfl | hb'
      · exact .inr ((List.singleton_sublist.2 ha').cons_cons b)
      · exact (ih ha' hb').imp (·.cons c) (·.cons c)

/-- Elements are found as they were updated, where the update keeps them found. -/
theorem find?_update {p : α → Bool} {f : α → α} (hf : ∀ a, p a → p (f a)) (l : List α) :
    (l.map fun a ↦ if p a then f a else a).find? p = (l.find? p).map f := by
  induction l with
  | nil => rfl
  | cons a l ih =>
    rw [List.map_cons]
    rcases ha : p a with - | -
    · rw [if_neg Bool.false_ne_true, List.find?_cons_of_neg (by simp [ha]),
        List.find?_cons_of_neg (by simp [ha]), ih]
    · rw [if_pos rfl, List.find?_cons_of_pos (hf a ha), List.find?_cons_of_pos ha]
      rfl

/-- Two filters keep the same elements of a list exactly when they agree on all of it. -/
theorem filter_inj {p q : α → Bool} {l : List α} :
    l.filter p = l.filter q ↔ ∀ a ∈ l, p a = q a := by
  constructor
  · intro h a ha
    have hmem (r : α → Bool) : a ∈ l.filter r ↔ r a = true := by
      rw [List.mem_filter, and_iff_right ha]
    rw [Bool.eq_iff_iff, ← hmem p, ← hmem q, h]
  · exact List.filter_congr

/-! ### Writes by index -/

section Writes

variable {β : Type*} (write : β → α → α)

theorem modify_length_append (f : α → α) (front l : List α) (a : α) :
    (front ++ a :: l).modify front.length f = front ++ f a :: l := by
  induction front with
  | nil => rfl
  | cons b front ih => exact congrArg (b :: ·) ih

/-- Several writes to one element. -/
theorem foldl_modify_length (keys : List β) (front l : List α) (a : α) :
    (keys.map (front.length, ·)).foldl (fun l e ↦ l.modify e.1 (write e.2)) (front ++ a :: l) =
      front ++ keys.foldl (fun a b ↦ write b a) a :: l := by
  induction keys generalizing a with
  | nil => rfl
  | cons b keys ih =>
    rw [List.map_cons, List.foldl_cons, modify_length_append, ih]
    rfl

/-- Writes to each element in turn. -/
theorem foldl_modify_zipIdx (keys : α × ℕ → List β) (front l : List α) :
    ((l.zipIdx front.length).flatMap fun p ↦ (keys p).map (p.2, ·)).foldl
        (fun l e ↦ l.modify e.1 (write e.2)) (front ++ l) =
      front ++ (l.zipIdx front.length).map fun p ↦ (keys p).foldl (fun a b ↦ write b a) p.1 := by
  induction l generalizing front with
  | nil => rfl
  | cons a l ih =>
    have hrest := ih (front ++ [(keys (a, front.length)).foldl (fun a b ↦ write b a) a])
    rw [List.length_append, List.length_singleton, List.append_assoc, List.append_assoc] at hrest
    rw [List.zipIdx_cons, List.flatMap_cons, List.foldl_append, foldl_modify_length, List.map_cons]
    exact hrest

end Writes

end Lists
