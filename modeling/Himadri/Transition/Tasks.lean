import Mathlib.Algebra.Order.Ring.Nat
import Mathlib.Data.Multiset.AddSub
import Mathlib.Tactic.Common

/-!
# Tasks in a list

A system that runs any number of tasks keeps them in a list, in the order they were started, and a
step moves one of them: `tasks.set j t`. What the tasks hold together — tickets, sequence numbers —
is the multiset `holdings f tasks` of what `f` reads off each, and moving one task exchanges its own
share and leaves the others (`holdings_set`).

At the root namespace: nothing here knows what a task is.
-/

namespace Tasks

variable {τ α : Type*} {f : τ → Option α} {tasks : List τ}

/-- What the tasks hold together. -/
def holdings (f : τ → Option α) (tasks : List τ) : Multiset α := (tasks.filterMap f : List α)

theorem mem_holdings {a : α} : a ∈ holdings f tasks ↔ ∃ t ∈ tasks, f t = some a := by
  simp [holdings]

/-- Tasks that hold nothing hold nothing together. -/
theorem holdings_eq_zero (h : ∀ t ∈ tasks, f t = none) : holdings f tasks = 0 := by
  rw [holdings, List.filterMap_eq_nil_iff.2 h]
  rfl

theorem holdings_append_singleton (t : τ) :
    holdings f (tasks ++ [t]) = holdings f tasks + (f t).toList := by
  cases h : f t with
  | none => simp [holdings, h]
  | some a =>
    simp [holdings, h, ← Multiset.coe_add]

/-- A task that moves exchanges its own share and leaves the others. -/
theorem holdings_set (f : τ → Option α) {j : ℕ} {t : τ} (h : tasks[j]? = some t) :
    ∃ others : Multiset α, holdings f tasks = (f t).toList + others ∧
      ∀ t', holdings f (tasks.set j t') = (f t').toList + others := by
  obtain ⟨hj, ht⟩ := List.getElem?_eq_some_iff.1 h
  have hset : ∀ t', holdings f (tasks.set j t') =
      ((f t').toList : Multiset α) +
        (holdings f (tasks.take j) + holdings f (tasks.drop (j + 1))) := by
    intro t'
    rw [List.set_eq_take_append_cons_drop, if_pos hj, holdings, List.filterMap_append,
      ← Multiset.coe_add]
    cases ht' : f t' with
    | none => simp [ht', holdings]
    | some a => simp [ht', holdings]
  refine ⟨_, ?_, hset⟩
  rw [← hset t, ← ht, List.set_getElem_self]

/-- A task that moves without holding anything more or less. -/
theorem holdings_set_of_eq (f : τ → Option α) {j : ℕ} {t : τ} (t' : τ) (h : tasks[j]? = some t)
    (heq : f t' = f t) :
    holdings f (tasks.set j t') = holdings f tasks := by
  obtain ⟨others, hbefore, hafter⟩ := holdings_set f h
  rw [hafter t', hbefore, heq]

/-- A task that starts to hold `a`. -/
theorem holdings_set_gain {j : ℕ} {t t' : τ} {a : α} (h : tasks[j]? = some t) (hnone : f t = none)
    (hsome : f t' = some a) : holdings f (tasks.set j t') = a ::ₘ holdings f tasks := by
  obtain ⟨others, hbefore, hafter⟩ := holdings_set f h
  rw [hafter t', hbefore, hnone, hsome]
  simp

/-- A task that held `a` and holds nothing now. -/
theorem holdings_set_lose {j : ℕ} {t t' : τ} {a : α} (h : tasks[j]? = some t)
    (hsome : f t = some a) (hnone : f t' = none) :
    holdings f tasks = a ::ₘ holdings f (tasks.set j t') := by
  obtain ⟨others, hbefore, hafter⟩ := holdings_set f h
  rw [hafter t', hbefore, hnone, hsome]
  simp

/-- A task that moves on lowers a sum over the tasks. -/
theorem sum_map_set_lt {f : τ → ℕ} {j : ℕ} {t t' : τ} (h : tasks[j]? = some t) (hlt : f t' < f t) :
    ((tasks.set j t').map f).sum < (tasks.map f).sum := by
  induction tasks generalizing j with
  | nil => cases h
  | cons u tasks ih =>
    cases j with
    | zero =>
      obtain rfl := Option.some.inj h
      simp only [List.set_cons_zero, List.map_cons, List.sum_cons]
      omega
    | succ j =>
      have hrest := ih h
      simp only [List.set_cons_succ, List.map_cons, List.sum_cons]
      omega

end Tasks
