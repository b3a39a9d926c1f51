import Mathlib.Data.List.Basic

/-!
# Walking a list until something answers

The loop that tries one candidate after another: a visit may emit something, and what the
environment decides at that candidate (its *fate*) settles whether the loop goes on. What such a
loop can emit over all fates is what its single visits can emit, as soon as every candidate can be
passed over (`Sweep.exists_mem_run_iff`).

Nothing here knows what a candidate is. At the root namespace, since no component owns it.
-/

namespace Sweep

variable {α φ ρ : Type*} (visit : α → φ → Option ρ × Bool)

/-- What the loop emits; `fate i` is decided at the `i`-th candidate. -/
def run : List α → (ℕ → φ) → List ρ
  | [], _ => []
  | a :: rest, fate =>
    (visit a (fate 0)).1.toList ++
      if (visit a (fate 0)).2 then run rest fun i ↦ fate (i + 1) else []

variable {visit} {as : List α} {a : α} {f : φ} {r : ρ}

/-- Whatever the loop emits, the visit of some candidate emits. -/
theorem exists_of_mem_run {fate : ℕ → φ} (h : r ∈ run visit as fate) :
    ∃ a ∈ as, ∃ f, (visit a f).1 = some r := by
  induction as generalizing fate with
  | nil => cases h
  | cons a rest ih =>
    rw [run, List.mem_append] at h
    rcases h with hhere | hlater
    · exact ⟨a, List.mem_cons_self, fate 0, Option.mem_toList.1 hhere⟩
    · split at hlater
      · obtain ⟨b, hb, f, hf⟩ := ih hlater
        exact ⟨b, List.mem_cons_of_mem _ hb, f, hf⟩
      · cases hlater

/-- A visit that emits is reached when the candidates before it are passed over. -/
theorem exists_mem_run (hpass : ∀ a ∈ as, ∃ f, (visit a f).2 = true) (ha : a ∈ as)
    (hf : (visit a f).1 = some r) : ∃ fate, r ∈ run visit as fate := by
  induction as with
  | nil => cases ha
  | cons b rest ih =>
    rcases List.mem_cons.1 ha with rfl | ha
    · refine ⟨fun _ ↦ f, ?_⟩
      rw [run, List.mem_append]
      exact .inl (Option.mem_toList.2 hf)
    · obtain ⟨pass, hb⟩ := hpass b List.mem_cons_self
      obtain ⟨fate, hr⟩ := ih (fun c hc ↦ hpass c (List.mem_cons_of_mem _ hc)) ha
      -- `b` is passed over, the rest meets the fates found for it
      refine ⟨fun i ↦ i.casesOn pass fate, ?_⟩
      rw [run, List.mem_append]
      right
      show r ∈ if (visit b pass).2 then run visit rest fate else []
      rwa [if_pos hb]

/-- **What some run emits is what some visit emits.** -/
theorem exists_mem_run_iff (hpass : ∀ a ∈ as, ∃ f, (visit a f).2 = true) :
    (∃ fate, r ∈ run visit as fate) ↔ ∃ a ∈ as, ∃ f, (visit a f).1 = some r := by
  constructor
  · rintro ⟨fate, hr⟩
    exact exists_of_mem_run hr
  · rintro ⟨a, ha, f, hf⟩
    exact exists_mem_run hpass ha hf

/-- A loop that sends on some of what another emits, and goes on where it does. -/
theorem run_filterMap {ψ ρ' : Type*} {visit' : α → ψ → Option ρ' × Bool} {h : φ → ψ}
    {send : ρ → Option ρ'}
    (hvisit : ∀ a f, visit' a (h f) = ((visit a f).1.bind send, (visit a f).2)) (fate : ℕ → φ) :
    run visit' as (fun i ↦ h (fate i)) = (run visit as fate).filterMap send := by
  induction as generalizing fate with
  | nil => rfl
  | cons a rest ih =>
    rw [run, run, hvisit, List.filterMap_append]
    congr 1
    · cases (visit a (fate 0)).1 with
      | none => rfl
      | some r =>
        show (send r).toList = [r].filterMap send
        cases hr : send r <;> simp [hr]
    · dsimp only
      split
      · exact ih fun i ↦ fate (i + 1)
      · rfl

end Sweep
