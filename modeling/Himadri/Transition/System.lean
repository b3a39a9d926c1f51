import Mathlib.Logic.Relation

/-!
# Labelled transition systems

The run vocabulary every concurrent component of the development is stated in: initial states, a
labelled step relation, the states a run can reach, and the three ways a statement about runs is
proved —

* an **invariant**, true initially and kept by every step (`Invariant.of_reachable`);
* a **guard**, which keeps only the steps meeting a condition on the state before the step
  (`guard`), so that "in every run whose steps all meet `ok`" is reachability in `T.guard ok`;
* a **simulation** onto another system along an abstraction map (`Simulation.reachable`), which
  carries every fact about the reachable states of the abstract system back.

Nothing here knows what a state is. At the root namespace, since no component owns it.
-/

/-- A labelled transition system: which states a run may start in, and which labelled steps it may
take. -/
structure TransitionSystem (σ ι : Type*) where
  /-- The states a run starts in. -/
  Init : σ → Prop
  /-- `Step s l s'`: the step labelled `l` leads from `s` to `s'`. -/
  Step : σ → ι → σ → Prop

namespace TransitionSystem

variable {σ ι τ κ : Type*} {T : TransitionSystem σ ι} {U : TransitionSystem τ κ}

/-! ### Reachability -/

/-- The states some finite run ends in. -/
inductive Reachable (T : TransitionSystem σ ι) : σ → Prop
  | init {s : σ} : T.Init s → T.Reachable s
  | step {s s' : σ} {l : ι} : T.Reachable s → T.Step s l s' → T.Reachable s'

/-- `s'` is reached from `s` by finitely many steps, whatever their labels. -/
def Leads (T : TransitionSystem σ ι) : σ → σ → Prop :=
  Relation.ReflTransGen fun s s' ↦ ∃ l, T.Step s l s'

theorem Reachable.leads {s s' : σ} (hs : T.Reachable s) (h : T.Leads s s') : T.Reachable s' := by
  induction h with
  | refl => exact hs
  | tail _ hstep ih =>
    obtain ⟨l, hl⟩ := hstep
    exact ih.step hl

/-! ### Systems given by a step function -/

/-- The system that starts in a state of `init` and takes the steps `step?` computes; a label it
sends to `none` is not enabled. -/
def ofPartial (init : σ → Prop) (step? : σ → ι → Option σ) : TransitionSystem σ ι where
  Init := init
  Step s l s' := step? s l = some s'

section Partial

variable {init : σ → Prop} {step? : σ → ι → Option σ}

/-- A list of labels that can be executed in order leads from a reachable state to a reachable
one. -/
theorem Reachable.foldlM {s s' : σ} {ls : List ι} (hs : (ofPartial init step?).Reachable s)
    (h : ls.foldlM step? s = some s') : (ofPartial init step?).Reachable s' := by
  induction ls generalizing s with
  | nil =>
    obtain rfl : s = s' := by simpa using h
    exact hs
  | cons l ls ih =>
    obtain ⟨t, ht, hrest⟩ := Option.bind_eq_some_iff.1 h
    exact ih (hs.step ht) hrest

theorem reachable_of_foldlM {start s : σ} (h₀ : init start) (ls : List ι)
    (h : ls.foldlM step? start = some s) : (ofPartial init step?).Reachable s :=
  Reachable.foldlM (.init h₀) h

end Partial

/-! ### Invariants -/

/-- A property that holds initially and that no step destroys. -/
structure Invariant (T : TransitionSystem σ ι) (P : σ → Prop) : Prop where
  init : ∀ s, T.Init s → P s
  step : ∀ s l s', P s → T.Step s l s' → P s'

theorem Invariant.of_reachable {P : σ → Prop} (hP : T.Invariant P) {s : σ}
    (h : T.Reachable s) : P s := by
  induction h with
  | init h₀ => exact hP.init _ h₀
  | step _ hstep ih => exact hP.step _ _ _ ih hstep

/-! ### Guards -/

/-- Keep only the steps that meet `ok`, a condition on the label and on the state before it. -/
def guard (T : TransitionSystem σ ι) (ok : σ → ι → Prop) : TransitionSystem σ ι where
  Init := T.Init
  Step s l s' := T.Step s l s' ∧ ok s l

theorem Reachable.of_guard {ok : σ → ι → Prop} {s : σ} (h : (T.guard ok).Reachable s) :
    T.Reachable s := by
  induction h with
  | init h₀ => exact .init h₀
  | step _ hstep ih => exact ih.step hstep.1

theorem Leads.guard_mono {ok ok' : σ → ι → Prop} (hok : ∀ s l, ok s l → ok' s l) {s s' : σ}
    (h : (T.guard ok).Leads s s') : (T.guard ok').Leads s s' := by
  induction h with
  | refl => exact .refl
  | tail _ hstep ih =>
    obtain ⟨l, hstep, hl⟩ := hstep
    exact ih.tail ⟨l, hstep, hok _ l hl⟩

section Partial

variable {init : σ → Prop} {step? : σ → ι → Option σ} {ok : σ → ι → Prop}
  [∀ s l, Decidable (ok s l)]

/-- A list of labels that can be executed in order, each meeting the guard, is a guarded run. -/
theorem Reachable.guard_foldlM {s s' : σ} {ls : List ι}
    (hs : ((ofPartial init step?).guard ok).Reachable s)
    (h : ls.foldlM (fun s l ↦ if ok s l then step? s l else none) s = some s') :
    ((ofPartial init step?).guard ok).Reachable s' := by
  induction ls generalizing s with
  | nil =>
    obtain rfl : s = s' := by simpa using h
    exact hs
  | cons l ls ih =>
    obtain ⟨t, ht, hrest⟩ := Option.bind_eq_some_iff.1 h
    obtain ⟨hok, ht⟩ := Option.ite_none_right_eq_some.1 ht
    exact ih (hs.step ⟨ht, hok⟩) hrest

theorem reachable_guard_of_foldlM {start s : σ} (h₀ : init start) (ls : List ι)
    (h : ls.foldlM (fun s l ↦ if ok s l then step? s l else none) start = some s) :
    ((ofPartial init step?).guard ok).Reachable s :=
  Reachable.guard_foldlM (.init h₀) h

theorem leads_guard_of_foldlM {s s' : σ} (ls : List ι)
    (h : ls.foldlM (fun s l ↦ if ok s l then step? s l else none) s = some s') :
    ((ofPartial init step?).guard ok).Leads s s' := by
  induction ls generalizing s with
  | nil =>
    obtain rfl : s = s' := by simpa using h
    exact .refl
  | cons l ls ih =>
    obtain ⟨t, ht, hrest⟩ := Option.bind_eq_some_iff.1 h
    obtain ⟨hok, ht⟩ := Option.ite_none_right_eq_some.1 ht
    exact .head ⟨l, ht, hok⟩ (ih hrest)

end Partial

/-! ### Simulations -/

/-- `abs` sends runs of `T` to runs of `U`: every step of `T` is a step of `U` or leaves the
abstraction alone. -/
structure Simulation (T : TransitionSystem σ ι) (U : TransitionSystem τ κ) (abs : σ → τ) :
    Prop where
  init : ∀ s, T.Init s → U.Init (abs s)
  step : ∀ s l s', T.Reachable s → T.Step s l s' →
    abs s' = abs s ∨ ∃ k, U.Step (abs s) k (abs s')

theorem Simulation.reachable {abs : σ → τ} (h : Simulation T U abs) {s : σ}
    (hs : T.Reachable s) : U.Reachable (abs s) := by
  induction hs with
  | init h₀ => exact .init (h.init _ h₀)
  | step hr hstep ih =>
    rcases h.step _ _ _ hr hstep with heq | ⟨k, hk⟩
    · rwa [heq]
    · exact ih.step hk

end TransitionSystem
