import Mathlib.Algebra.BigOperators.Group.List.Basic
import Mathlib.Data.List.Nodup
import Mathlib.Data.List.Dedup
import Mathlib.Data.List.Induction

/-!
# Sums over groups

An association list that is filled one item at a time, each added to the entry of its key, and the
sums over it: whatever the keys, the entries sum to the items. Over a list of keys without
repetition, the sums of the items of each key make up the sum of the items with one of the keys.

At the root namespace: nothing here knows what an item is.
-/

namespace Groups

variable {α κ : Type*} [DecidableEq κ]

/-- Change the entry of a key, a new one where there is none. -/
def upsert {M : Type*} (key : κ) (f : M → M) (init : M) : List (κ × M) → List (κ × M)
  | [] => [(key, f init)]
  | (k, m) :: rest => if k = key then (k, f m) :: rest else (k, m) :: upsert key f init rest

section Upsert

variable {M : Type*} {key : κ} {f : M → M} {init : M}

theorem mem_keys_upsert {k : κ} (l : List (κ × M)) :
    k ∈ (upsert key f init l).map Prod.fst ↔ k = key ∨ k ∈ l.map Prod.fst := by
  induction l with
  | nil => simp [upsert]
  | cons e l ih =>
    rw [upsert]
    split_ifs with h
    · subst h
      simp only [List.map_cons, List.mem_cons, or_self_left]
    · simp only [List.map_cons, List.mem_cons, ih, or_left_comm]

theorem nodup_keys_upsert {l : List (κ × M)} (h : (l.map Prod.fst).Nodup) :
    ((upsert key f init l).map Prod.fst).Nodup := by
  induction l with
  | nil => exact List.nodup_singleton key
  | cons e l ih =>
    obtain ⟨hnotMem, hnodup⟩ := List.nodup_cons.1 h
    rw [upsert]
    split_ifs with hkey
    · exact h
    · refine List.nodup_cons.2 ⟨fun hmem ↦ ?_, ih hnodup⟩
      exact ((mem_keys_upsert l).1 hmem).elim hkey hnotMem

end Upsert

variable {M : Type*} [AddCommMonoid M]

theorem sum_upsert (key : κ) (c : M) (l : List (κ × M)) :
    ((upsert key (· + c) 0 l).map Prod.snd).sum = (l.map Prod.snd).sum + c := by
  induction l with
  | nil => simp [upsert]
  | cons e l ih =>
    rw [upsert]
    split_ifs
    · rw [List.map_cons, List.map_cons, List.sum_cons, List.sum_cons, add_right_comm]
    · rw [List.map_cons, List.map_cons, List.sum_cons, List.sum_cons, ih, add_assoc]

/-- The items, each added to the entry of its key. -/
def aggregate (key : α → κ) (f : α → M) (items : List α) : List (κ × M) :=
  items.foldl (fun groups a ↦ upsert (key a) (· + f a) 0 groups) []

section Aggregate

variable {key : α → κ} {f : α → M}

theorem aggregate_concat (items : List α) (a : α) :
    aggregate key f (items ++ [a]) = upsert (key a) (· + f a) 0 (aggregate key f items) := by
  rw [aggregate, List.foldl_append]
  rfl

/-- The entries sum to the items. -/
theorem sum_aggregate (key : α → κ) (f : α → M) (items : List α) :
    ((aggregate key f items).map Prod.snd).sum = (items.map f).sum := by
  induction items using List.reverseRecOn with
  | nil => rfl
  | append_singleton items a ih =>
    rw [aggregate_concat, sum_upsert, ih, List.map_append, List.sum_append, List.map_singleton,
      List.sum_singleton]

/-- There is one entry for each key. -/
theorem length_aggregate (items : List α) :
    (aggregate key f items).length = (items.map key).dedup.length := by
  have hkeys : ((aggregate key f items).map Prod.fst).Nodup ∧
      ∀ k, k ∈ (aggregate key f items).map Prod.fst ↔ k ∈ items.map key := by
    induction items using List.reverseRecOn with
    | nil => exact ⟨List.nodup_nil, fun _ ↦ Iff.rfl⟩
    | append_singleton items a ih =>
      rw [aggregate_concat]
      refine ⟨nodup_keys_upsert ih.1, fun k ↦ ?_⟩
      rw [mem_keys_upsert, ih.2 k, List.map_append, List.mem_append, List.map_singleton,
        List.mem_singleton, or_comm]
  have hperm : ((aggregate key f items).map Prod.fst).Perm (items.map key).dedup :=
    (List.perm_ext_iff_of_nodup hkeys.1 (List.nodup_dedup _)).2 fun k ↦ by
      rw [hkeys.2 k, List.mem_dedup]
  rw [← hperm.length_eq, List.length_map]

/-- Two kinds of items, summed apart. -/
theorem sum_filter_or (f : α → M) (items : List α) {p q : α → Bool}
    (hdisjoint : ∀ a, p a = true → q a = false) :
    ((items.filter p).map f).sum + ((items.filter q).map f).sum =
      ((items.filter fun a ↦ p a || q a).map f).sum := by
  induction items with
  | nil => simp
  | cons a items ih =>
    rw [List.filter_cons, List.filter_cons, List.filter_cons]
    rcases hp : p a with _ | _
    · rcases hq : q a with _ | _
      · exact ih
      · simp only [Bool.false_or, if_true, Bool.false_eq_true, if_false, List.map_cons,
          List.sum_cons]
        rw [add_left_comm, ih]
    · rw [hdisjoint a hp]
      simp only [Bool.true_or, if_true, Bool.false_eq_true, if_false, List.map_cons,
        List.sum_cons]
      rw [add_assoc, ih]

/-- The sums of the items of each key make up the sum of the items with one of the keys. -/
theorem sum_keys (key : α → Option κ) (f : α → M) (items : List α) {keys : List κ}
    (hnodup : keys.Nodup) :
    (keys.map fun k ↦ ((items.filter fun a ↦ decide (key a = some k)).map f).sum).sum =
      ((items.filter fun a ↦ decide (∃ k ∈ keys, key a = some k)).map f).sum := by
  induction keys with
  | nil => simp
  | cons k keys ih =>
    obtain ⟨hk, hkeys⟩ := List.nodup_cons.1 hnodup
    rw [List.map_cons, List.sum_cons, ih hkeys, sum_filter_or]
    · congr 3
      funext a
      simp only [List.exists_mem_cons_iff, Bool.decide_or]
    · intro a ha
      refine decide_eq_false ?_
      rintro ⟨k', hk', heq⟩
      exact hk (Option.some.inj ((of_decide_eq_true ha).symm.trans heq) ▸ hk')

end Aggregate

end Groups
