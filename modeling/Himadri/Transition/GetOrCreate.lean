import Himadri.Core.KeyMap
import Himadri.Transition.System
import Mathlib.Data.List.Nodup

/-!
# Get or create

A map that is asked for the value of a key and builds it on the first demand, the lookup and the
entry in two sections: a caller that finds nothing lets go of the map, and whoever comes back first
builds the value. A value is known by its address, the place in the order in which the values were
built.

In every run the callers of a key are all answered with one value, those of different keys with
different ones, and no key is built twice (`Run.answers_iff`, `Run.nodup_cells`). What a value is
made of was proposed by one of its callers (`Run.proposed`).

At the root namespace: the map, its keys and its values are arbitrary.
-/

namespace GetOrCreate

/-- The values built so far with their keys, the address under each key, the callers between the two
sections with what they would build, and the answers. -/
structure Run (κ α : Type*) where
  cells : List (κ × α)
  map : KeyMap κ ℕ
  waiting : List (κ × α)
  answers : List (κ × ℕ)

/-- One step. -/
inductive Op (κ α : Type*)
  /-- A caller looks for its key; `v` is what it would build. -/
  | look (k : κ) (v : α)
  /-- The `i`-th of the callers that found nothing, in the entry of its key. -/
  | enter (i : ℕ)

namespace Run

variable {κ α : Type*} [DecidableEq κ]

/-- A map that nobody has asked. -/
def start : Run κ α := ⟨[], .empty, [], []⟩

/-- One step. -/
def step? (s : Run κ α) : Op κ α → Option (Run κ α)
  | .look k v =>
    match s.map.get k with
    | some a => some { s with answers := (k, a) :: s.answers }
    | none => some { s with waiting := s.waiting ++ [(k, v)] }
  | .enter i =>
    match s.waiting[i]? with
    | none => none
    | some (k, v) =>
      let s := { s with waiting := s.waiting.eraseIdx i }
      match s.map.get k with
      | some a => some { s with answers := (k, a) :: s.answers }
      | none =>
        some
          { s with
            cells := s.cells ++ [(k, v)]
            map := s.map.insert k s.cells.length
            answers := (k, s.cells.length) :: s.answers }

/-- Any number of callers, of any keys. -/
def runs : TransitionSystem (Run κ α) (Op κ α) := .ofPartial (· = start) step?

/-- The caller would build what `P` allows. -/
def Proposes (P : κ → α → Prop) (_ : Run κ α) : Op κ α → Prop
  | .look k v => P k v
  | .enter _ => True

variable {s s' : Run κ α} {op : Op κ α} {P : κ → α → Prop}

/-- What a step can do: a caller waits, is answered with what is there, or builds. -/
theorem step_cases (h : s.step? op = some s') :
    (∃ k v, op = .look k v ∧ s' = { s with waiting := s.waiting ++ [(k, v)] }) ∨
      (∃ k a waiting, s.map.get k = some a ∧ waiting ⊆ s.waiting ∧
        s' = { s with waiting, answers := (k, a) :: s.answers }) ∨
      ∃ k v waiting, s.map.get k = none ∧ (k, v) ∈ s.waiting ∧ waiting ⊆ s.waiting ∧
        s' =
          { cells := s.cells ++ [(k, v)]
            map := s.map.insert k s.cells.length
            waiting
            answers := (k, s.cells.length) :: s.answers } := by
  rcases op with ⟨k, v⟩ | i
  · rw [step?] at h
    rcases hget : s.map.get k with - | a
    · rw [hget] at h
      exact .inl ⟨k, v, rfl, (Option.some.inj h).symm⟩
    · rw [hget] at h
      exact .inr (.inl ⟨k, a, s.waiting, hget, List.Subset.refl _, (Option.some.inj h).symm⟩)
  · rw [step?] at h
    rcases hwaiting : s.waiting[i]? with - | ⟨k, v⟩
    · rw [hwaiting] at h
      cases h
    · simp only [hwaiting] at h
      have hsub : s.waiting.eraseIdx i ⊆ s.waiting := List.eraseIdx_subset ..
      rcases hget : s.map.get k with - | a
      · rw [hget] at h
        exact .inr (.inr ⟨k, v, _, hget, List.mem_of_getElem? hwaiting, hsub,
          (Option.some.inj h).symm⟩)
      · rw [hget] at h
        exact .inr (.inl ⟨k, a, _, hget, hsub, (Option.some.inj h).symm⟩)

/-- Every value has the address of its key, and every caller was given the address of its key. -/
structure Shared (s : Run κ α) : Prop where
  built : ∀ k a, s.map.get k = some a → ∃ v, s.cells[a]? = some (k, v)
  mapped : ∀ k a v, s.cells[a]? = some (k, v) → s.map.get k = some a
  answered : ∀ k a, (k, a) ∈ s.answers → s.map.get k = some a

/-- An entry behind a list is one of the list or the new one. -/
theorem getElem?_concat_cases {β : Type*} {l : List β} {x y : β} {a : ℕ}
    (h : (l ++ [x])[a]? = some y) : l[a]? = some y ∨ (a = l.length ∧ x = y) := by
  obtain ⟨hlt, hget⟩ := List.getElem?_eq_some_iff.1 h
  rw [List.length_append, List.length_singleton] at hlt
  rcases Nat.lt_succ_iff_lt_or_eq.1 hlt with hlt | rfl
  · rw [List.getElem?_append_left hlt] at h
    exact .inl h
  · rw [List.getElem?_concat_length] at h
    exact .inr ⟨rfl, Option.some.inj h⟩

theorem Shared.step (h : s.Shared) (hstep : s.step? op = some s') : s'.Shared := by
  obtain ⟨k, v, -, rfl⟩ | ⟨k, a, waiting, hget, -, rfl⟩ | ⟨k, v, waiting, hget, -, -, rfl⟩ :=
    step_cases hstep
  · exact ⟨h.built, h.mapped, h.answered⟩
  · refine ⟨h.built, h.mapped, fun k' a' hmem ↦ ?_⟩
    rcases List.mem_cons.1 hmem with heq | hmem
    · cases heq
      exact hget
    · exact h.answered k' a' hmem
  · refine ⟨fun k' a' hget' ↦ ?_, fun k' a' v' hcell ↦ ?_, fun k' a' hmem ↦ ?_⟩
    · rw [KeyMap.get_insert] at hget'
      split_ifs at hget' with hk
      · rw [← Option.some.inj hget', hk]
        exact ⟨v, List.getElem?_concat_length⟩
      · obtain ⟨v', hcell⟩ := h.built k' a' hget'
        exact ⟨v', (List.getElem?_append_left (List.getElem?_eq_some_iff.1 hcell).1).trans hcell⟩
    · rcases getElem?_concat_cases hcell with hcell | ⟨rfl, heq⟩
      · exact KeyMap.get_insert_of_get hget (h.mapped k' a' v' hcell)
      · cases heq
        exact KeyMap.get_insert_self ..
    · rcases List.mem_cons.1 hmem with heq | hmem
      · cases heq
        exact KeyMap.get_insert_self ..
      · exact KeyMap.get_insert_of_get hget (h.answered k' a' hmem)

theorem shared_invariant : (runs (κ := κ) (α := α)).Invariant Shared where
  init s hs := by
    rw [show s = start from hs]
    exact ⟨fun k a h ↦ (nomatch h), fun k a v h ↦ (nomatch h),
      fun k a h ↦ absurd h List.not_mem_nil⟩
  step _ _ _ h hstep := h.step hstep

/-- Two callers are given the same value exactly when they ask for the same key. -/
theorem answers_iff (hs : runs.Reachable s) {k k' : κ} {a a' : ℕ} (h : (k, a) ∈ s.answers)
    (h' : (k', a') ∈ s.answers) : a = a' ↔ k = k' := by
  have hshared := shared_invariant.of_reachable hs
  have hget := hshared.answered k a h
  have hget' := hshared.answered k' a' h'
  constructor
  · rintro rfl
    obtain ⟨v, hcell⟩ := hshared.built k a hget
    obtain ⟨v', hcell'⟩ := hshared.built k' a hget'
    exact congrArg Prod.fst (Option.some.inj (hcell.symm.trans hcell'))
  · rintro rfl
    exact Option.some.inj (hget.symm.trans hget')

/-- What a caller is answered with was built for its key. -/
theorem cell_of_answer (hs : runs.Reachable s) {k : κ} {a : ℕ} (h : (k, a) ∈ s.answers) :
    ∃ v, s.cells[a]? = some (k, v) := by
  have hshared := shared_invariant.of_reachable hs
  exact hshared.built k a (hshared.answered k a h)

/-- No key is built twice. -/
theorem nodup_cells (hs : runs.Reachable s) : (s.cells.map Prod.fst).Nodup := by
  have hshared := shared_invariant.of_reachable hs
  refine List.nodup_iff_getElem?_ne_getElem?.2 fun i j hij hj heq ↦ ?_
  rw [List.length_map] at hj
  have hi := Nat.lt_trans hij hj
  rw [List.getElem?_map, List.getElem?_map, List.getElem?_eq_getElem hi,
    List.getElem?_eq_getElem hj] at heq
  have hkey : (s.cells[i]).1 = (s.cells[j]).1 := Option.some.inj heq
  have hgeti := hshared.mapped (s.cells[i]).1 i _ (List.getElem?_eq_getElem hi)
  have hgetj := hshared.mapped (s.cells[j]).1 j _ (List.getElem?_eq_getElem hj)
  rw [hkey, hgetj] at hgeti
  exact absurd (Option.some.inj hgeti) (Nat.ne_of_gt hij)

/-- What is built was proposed by a caller of its key. -/
theorem proposed (hs : (runs.guard (Proposes P)).Reachable s) :
    (∀ p ∈ s.cells, P p.1 p.2) ∧ ∀ p ∈ s.waiting, P p.1 p.2 := by
  induction hs with
  | init hs =>
    rw [show _ = start from hs]
    exact ⟨fun p hp ↦ absurd hp List.not_mem_nil, fun p hp ↦ absurd hp List.not_mem_nil⟩
  | step _ hstep ih =>
    obtain ⟨k, v, rfl, rfl⟩ | ⟨k, a, waiting, -, hsub, rfl⟩ | ⟨k, v, waiting, -, hmem, hsub, rfl⟩ :=
      step_cases hstep.1
    · refine ⟨ih.1, fun p hp ↦ ?_⟩
      rcases List.mem_append.1 hp with hp | hp
      · exact ih.2 p hp
      · rw [List.mem_singleton.1 hp]
        exact hstep.2
    · exact ⟨ih.1, fun p hp ↦ ih.2 p (hsub hp)⟩
    · refine ⟨fun p hp ↦ ?_, fun p hp ↦ ih.2 p (hsub hp)⟩
      rcases List.mem_append.1 hp with hp | hp
      · exact ih.1 p hp
      · rw [List.mem_singleton.1 hp]
        exact ih.2 _ hmem

end Run

end GetOrCreate
