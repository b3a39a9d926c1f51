import Mathlib.Logic.Function.Basic
import Mathlib.Tactic.Common

/-!
# Maps by what they answer

`HashMap` and `DashMap`: a map whose operations are each atomic. One operation is one function here;
which operations of different tasks can fall between two of them is a matter of the system that uses
the map. Nothing depends on the order a map is iterated in, so a map is what it answers to `get`,
and writing an entry is `Function.update`.

At the root namespace: any development that models such maps can use it.
-/

/-- A map from `κ` to `α`. -/
structure KeyMap (κ α : Type*) where
  /-- The value under a key. -/
  get : κ → Option α

namespace KeyMap

variable {κ α β : Type*}

@[ext]
theorem ext {m m' : KeyMap κ α} (h : ∀ k, m.get k = m'.get k) : m = m' := by
  cases m
  cases m'
  congr
  exact funext h

/-- The map without entries. -/
def empty : KeyMap κ α := ⟨fun _ ↦ none⟩

/-- Whether the map has the key. -/
def containsKey (m : KeyMap κ α) (k : κ) : Bool := (m.get k).isSome

/-- Drop the entries whose key fails the test. -/
def retain (m : KeyMap κ α) (keep : κ → Bool) : KeyMap κ α :=
  ⟨fun k ↦ if keep k then m.get k else none⟩

/-- Change every value in place. -/
def mapValues (m : KeyMap κ α) (f : α → β) : KeyMap κ β := ⟨fun k ↦ (m.get k).map f⟩

@[simp] theorem get_empty (k : κ) : (empty : KeyMap κ α).get k = none := rfl

@[simp] theorem get_retain (m : KeyMap κ α) (keep : κ → Bool) (k : κ) :
    (m.retain keep).get k = if keep k then m.get k else none := rfl

@[simp] theorem get_mapValues (m : KeyMap κ α) (f : α → β) (k : κ) :
    (m.mapValues f).get k = (m.get k).map f := rfl

theorem mapValues_mapValues {γ : Type*} (m : KeyMap κ α) (f : α → β) (g : β → γ) :
    (m.mapValues f).mapValues g = m.mapValues (g ∘ f) := by
  ext1 k
  simp

theorem containsKey_retain {m : KeyMap κ α} {keep : κ → Bool} {k : κ} :
    (m.retain keep).containsKey k ↔ m.containsKey k ∧ keep k := by
  by_cases h : keep k <;> simp [containsKey, h]

theorem containsKey_iff {m : KeyMap κ α} {k : κ} : m.containsKey k ↔ ∃ v, m.get k = some v :=
  Option.isSome_iff_exists

theorem ne_of_get {m : KeyMap κ α} {k k' : κ} {v : α} (h : m.get k = some v)
    (h' : m.get k' = none) : k ≠ k' := by
  rintro rfl
  rw [h] at h'
  cases h'

/-- The entries of a map, in an order an iterator may yield them in. -/
structure IteratedAs (m : KeyMap κ α) (entries : List (κ × α)) : Prop where
  nodup : (entries.map Prod.fst).Nodup
  get_iff : ∀ k v, m.get k = some v ↔ (k, v) ∈ entries

theorem iteratedAs_empty : (empty : KeyMap κ α).IteratedAs [] where
  nodup := List.nodup_nil
  get_iff _ _ := iff_of_false (fun h ↦ by cases h) List.not_mem_nil

variable [DecidableEq κ]

/-- Write an entry. -/
def insert (m : KeyMap κ α) (k : κ) (v : α) : KeyMap κ α := ⟨Function.update m.get k (some v)⟩

/-- Remove an entry. -/
def remove (m : KeyMap κ α) (k : κ) : KeyMap κ α := ⟨Function.update m.get k none⟩

@[simp] theorem get_insert_self (m : KeyMap κ α) (k : κ) (v : α) :
    (m.insert k v).get k = some v := Function.update_self ..

theorem get_insert_of_ne {m : KeyMap κ α} {k k' : κ} {v : α} (h : k' ≠ k) :
    (m.insert k v).get k' = m.get k' := Function.update_of_ne h ..

/-- An entry written under a new key leaves those that are there. -/
theorem get_insert_of_get {m : KeyMap κ α} {k k' : κ} {v w : α} (hnew : m.get k = none)
    (h : m.get k' = some w) : (m.insert k v).get k' = some w :=
  (get_insert_of_ne (ne_of_get h hnew)).trans h

theorem get_insert (m : KeyMap κ α) (k k' : κ) (v : α) :
    (m.insert k v).get k' = if k' = k then some v else m.get k' :=
  Function.update_apply m.get k (some v) k'

theorem get_remove (m : KeyMap κ α) (k k' : κ) :
    (m.remove k).get k' = if k' = k then none else m.get k' :=
  Function.update_apply m.get k none k'

@[simp] theorem get_remove_self (m : KeyMap κ α) (k : κ) : (m.remove k).get k = none :=
  Function.update_self ..

theorem get_remove_of_ne {m : KeyMap κ α} {k k' : κ} (h : k' ≠ k) :
    (m.remove k).get k' = m.get k' := Function.update_of_ne h ..

theorem get_remove_insert {m : KeyMap κ α} {k : κ} {v : α} (h : ∀ k' ≠ k, m.get k' = none)
    (k' : κ) : ((m.insert k v).remove k).get k' = none := by
  rw [get_remove, get_insert]
  split
  · rfl
  · next hne => exact h k' hne

@[simp] theorem insert_remove (m : KeyMap κ α) (k : κ) (v : α) :
    (m.remove k).insert k v = m.insert k v :=
  congrArg KeyMap.mk (Function.update_idem ..)

/-- Change the entry under a key, where there is one. -/
def modify (m : KeyMap κ α) (k : κ) (f : α → α) : KeyMap κ α :=
  match m.get k with
  | none => m
  | some v => m.insert k (f v)

theorem get_modify (m : KeyMap κ α) (k k' : κ) (f : α → α) :
    (m.modify k f).get k' = if k' = k then (m.get k).map f else m.get k' := by
  rcases hk : m.get k with - | v
  · simp only [modify, hk]
    split
    · next heq => rw [heq, hk, Option.map_none]
    · rfl
  · simp only [modify, hk, Option.map_some]
    exact get_insert ..

/-! ### Many entries at once -/

/-- Write entries one after another, a later one over an earlier one of the same key. -/
def insertAll (m : KeyMap κ α) (entries : List (κ × α)) : KeyMap κ α :=
  entries.foldl (fun m e ↦ m.insert e.1 e.2) m

/-- Remove keys one after another. -/
def removeAll (m : KeyMap κ α) (ks : List κ) : KeyMap κ α := ks.foldl remove m

theorem insertAll_concat (m : KeyMap κ α) (entries : List (κ × α)) (e : κ × α) :
    m.insertAll (entries ++ [e]) = (m.insertAll entries).insert e.1 e.2 := by
  rw [insertAll, List.foldl_append]
  rfl

theorem removeAll_concat (m : KeyMap κ α) (ks : List κ) (k : κ) :
    m.removeAll (ks ++ [k]) = (m.removeAll ks).remove k := by
  rw [removeAll, List.foldl_append]
  rfl

theorem get_insertAll_of_notMem {m : KeyMap κ α} {entries : List (κ × α)} {k : κ}
    (h : k ∉ entries.map Prod.fst) : (m.insertAll entries).get k = m.get k := by
  induction entries generalizing m with
  | nil => rfl
  | cons e entries ih =>
    rw [List.map_cons, List.mem_cons, not_or] at h
    exact (ih h.2).trans (get_insert_of_ne h.1)

/-- A key written at least once is there afterwards, with one of the values written. -/
theorem get_insertAll_of_mem {m : KeyMap κ α} {entries : List (κ × α)} {k : κ}
    (h : k ∈ entries.map Prod.fst) :
    ∃ v, (k, v) ∈ entries ∧ (m.insertAll entries).get k = some v := by
  induction entries generalizing m with
  | nil => cases h
  | cons e entries ih =>
    by_cases hlater : k ∈ entries.map Prod.fst
    · obtain ⟨v, hmem, hget⟩ := ih (m := m.insert e.1 e.2) hlater
      exact ⟨v, List.mem_cons_of_mem _ hmem, hget⟩
    · obtain rfl : k = e.1 := by
        rw [List.map_cons, List.mem_cons] at h
        exact h.resolve_right hlater
      refine ⟨e.2, List.mem_cons_self, ?_⟩
      exact (get_insertAll_of_notMem hlater).trans (get_insert_self _ _ _)

theorem containsKey_insertAll {m : KeyMap κ α} {entries : List (κ × α)} {k : κ} :
    (m.insertAll entries).containsKey k ↔ m.containsKey k ∨ k ∈ entries.map Prod.fst := by
  by_cases h : k ∈ entries.map Prod.fst
  · obtain ⟨v, -, hget⟩ := get_insertAll_of_mem (m := m) h
    simp [containsKey, hget, h]
  · simp [containsKey, get_insertAll_of_notMem h, h]

theorem get_removeAll (m : KeyMap κ α) (ks : List κ) (k : κ) :
    (m.removeAll ks).get k = if k ∈ ks then none else m.get k := by
  induction ks generalizing m with
  | nil => simp [removeAll]
  | cons k' ks ih =>
    refine (ih (m.remove k')).trans ?_
    rcases eq_or_ne k k' with rfl | hne
    · simp
    · simp [get_remove_of_ne hne, hne]

theorem containsKey_removeAll {m : KeyMap κ α} {ks : List κ} {k : κ} :
    (m.removeAll ks).containsKey k ↔ m.containsKey k ∧ k ∉ ks := by
  by_cases h : k ∈ ks <;> simp [containsKey, get_removeAll, h]

/-! ### Two maps side by side -/

/-- Every entry of `m` has one of `m'` beside it. -/
def Linked (R : κ → α → β → Prop) (m : KeyMap κ α) (m' : KeyMap κ β) : Prop :=
  ∀ k a, m.get k = some a → ∃ b, m'.get k = some b ∧ R k a b

section Linked

variable {R : κ → α → β → Prop} {m : KeyMap κ α} {m' : KeyMap κ β}

theorem Linked.insert (h : Linked R m m') {k : κ} {a : α} {b : β} (hR : R k a b) :
    Linked R (m.insert k a) (m'.insert k b) := by
  intro k' a' hget
  rcases eq_or_ne k' k with rfl | hne
  · obtain rfl : a = a' := Option.some.inj ((get_insert_self ..).symm.trans hget)
    exact ⟨b, get_insert_self .., hR⟩
  · rw [get_insert_of_ne hne] at hget ⊢
    exact h k' a' hget

/-- Entries written to both maps together. -/
theorem Linked.insertAll (h : Linked R m m') {ι : Type*} {rows : List ι} {key : ι → κ} {f : ι → α}
    {g : ι → β} (hR : ∀ row ∈ rows, R (key row) (f row) (g row)) :
    Linked R (m.insertAll (rows.map fun row ↦ (key row, f row)))
      (m'.insertAll (rows.map fun row ↦ (key row, g row))) := by
  induction rows generalizing m m' with
  | nil => exact h
  | cons row rows ih =>
    exact ih (h.insert (hR row List.mem_cons_self)) fun r hr ↦ hR r (List.mem_cons_of_mem _ hr)

theorem Linked.removeAll (h : Linked R m m') (ks : List κ) : Linked R (m.removeAll ks) m' := by
  intro k a hget
  rw [get_removeAll] at hget
  exact h k a (Option.ite_none_left_eq_some.1 hget).2

end Linked

/-! ### Iteration -/

theorem IteratedAs.insert {m : KeyMap κ α} {entries : List (κ × α)} (h : m.IteratedAs entries)
    (k : κ) (v : α) :
    (m.insert k v).IteratedAs ((k, v) :: entries.filter fun e ↦ decide (e.1 ≠ k)) where
  nodup := by
    rw [List.map_cons, List.nodup_cons]
    refine ⟨fun hmem ↦ ?_, h.nodup.sublist (List.filter_sublist.map Prod.fst)⟩
    obtain ⟨e, he, heq⟩ := List.mem_map.1 hmem
    exact of_decide_eq_true (List.mem_filter.1 he).2 heq
  get_iff k' v' := by
    rw [get_insert, List.mem_cons, List.mem_filter]
    split_ifs with hk
    · subst hk
      constructor
      · exact fun hv ↦ .inl (Prod.ext rfl (Option.some.inj hv).symm)
      · rintro (heq | ⟨-, hne⟩)
        · exact congrArg some (congrArg Prod.snd heq).symm
        · exact absurd rfl (of_decide_eq_true hne)
    · rw [h.get_iff k' v']
      constructor
      · exact fun hmem ↦ .inr ⟨hmem, decide_eq_true hk⟩
      · rintro (heq | ⟨hmem, -⟩)
        · exact absurd (congrArg Prod.fst heq) hk
        · exact hmem

/-- A map that is filled entry by entry can be iterated. -/
theorem IteratedAs.insertAll {m : KeyMap κ α} {entries : List (κ × α)} (h : m.IteratedAs entries)
    (written : List (κ × α)) : ∃ entries', (m.insertAll written).IteratedAs entries' := by
  induction written generalizing m entries with
  | nil => exact ⟨entries, h⟩
  | cons e written ih => exact ih (h.insert e.1 e.2)

end KeyMap
