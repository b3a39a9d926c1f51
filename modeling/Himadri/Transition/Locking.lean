import Himadri.Transition.System
import Himadri.Transition.Tasks
import Mathlib.Data.List.MinMax

/-!
# Tasks over fair read-write locks

Tasks that acquire and release locks and wait for answers from outside. A lock is fair: it is
granted in order of arrival, so that a writer that waits keeps out every reader that comes after it.
An answer from outside may never come.

Two static properties of the programs decide what can go wrong:

* `Ordered rank`: locks are taken in ascending rank. Then no tasks ever wait for one another in a
  cycle (`acyclic_of_reachable`), whatever the answers do.
* `BareCalls`: no lock is held over an outside call. Then a task that waits for an answer is in
  nobody's way, and every other task can finish while all outside stay silent but its own
  (`canFinish_of_reachable`).

At the root namespace: locks, ranks and programs are any.
-/

namespace Locking

/-- How a lock is held. -/
inductive Mode
  | read
  | write
  deriving DecidableEq

/-- One action of a program. -/
inductive Action (L : Type*)
  | acquire (l : L) (mode : Mode)
  | release (l : L)
  /-- Call the outside and wait for the answer. -/
  | call

/-- What a task is doing. -/
inductive Status (L : Type*)
  | ready
  /-- Waiting for a lock, having come as number `ticket`. -/
  | waiting (l : L) (mode : Mode) (ticket : ℕ)
  | calling

/-- A task: its program, what is left of it, the locks it holds and what it is doing. -/
structure Task (κ L : Type*) where
  program : κ
  todo : List (Action L)
  held : List (L × Mode)
  status : Status L

/-- The tasks in the order they were started, and how often a lock has been asked for. -/
structure State (κ L : Type*) where
  tasks : List (Task κ L)
  arrivals : ℕ

/-- One step. -/
inductive Op (κ : Type*)
  | spawn (program : κ)
  /-- Task `j` does its next action. -/
  | act (j : ℕ)
  /-- Task `j` gets the lock it waits for. -/
  | grant (j : ℕ)
  /-- The answer task `j` waits for arrives. -/
  | reply (j : ℕ)

section Programs

variable {L α : Type*} [DecidableEq L]

/-- Locks are taken in ascending rank, over those already held, and all released in the end. -/
def Ordered [LT α] (rank : L → α) : List L → List (Action L) → Prop
  | held, [] => held = []
  | held, .acquire l _ :: todo => (∀ h ∈ held, rank h < rank l) ∧ Ordered rank (l :: held) todo
  | held, .release l :: todo => Ordered rank (held.filter (· ≠ l)) todo
  | held, .call :: todo => Ordered rank held todo

/-- No lock is held over a call. -/
def BareCalls : List L → List (Action L) → Prop
  | _, [] => True
  | held, .acquire l _ :: todo => BareCalls (l :: held) todo
  | held, .release l :: todo => BareCalls (held.filter (· ≠ l)) todo
  | held, .call :: todo => held = [] ∧ BareCalls held todo

/-- Take a lock and give it back. -/
def touch (l : L) (mode : Mode) : List (Action L) := [.acquire l mode, .release l]

/-- Pass from the lock held to each of the next ones, taking one before the last is given back. -/
def handOver (mode : Mode) : L → List L → List (Action L)
  | l, [] => [.release l]
  | l, l' :: ls => .acquire l' mode :: .release l :: handOver mode l' ls

/-- Pass over some locks hand over hand. -/
def sweep (mode : Mode) : List L → List (Action L)
  | [] => []
  | l :: ls => .acquire l mode :: handOver mode l ls

/-- A program that keeps to the order and holds nothing over a call. -/
structure WellLocked [LT α] (rank : L → α) (todo : List (Action L)) : Prop where
  ordered : Ordered rank [] todo
  bare : BareCalls [] todo

section Composition

variable {todo todo' : List (Action L)} {held : List L}

theorem Ordered.append [LT α] {rank : L → α} (h : Ordered rank held todo)
    (h' : Ordered rank [] todo') : Ordered rank held (todo ++ todo') := by
  induction todo generalizing held with
  | nil =>
    obtain rfl : held = [] := h
    exact h'
  | cons action todo ih =>
    cases action with
    | acquire l mode => exact ⟨h.1, ih h.2⟩
    | release l => exact ih h
    | call => exact ih h

/-- The order is what makes a program hold nothing in the end. -/
theorem BareCalls.append [LT α] {rank : L → α} (hordered : Ordered rank held todo)
    (h : BareCalls held todo) (h' : BareCalls [] todo') : BareCalls held (todo ++ todo') := by
  induction todo generalizing held with
  | nil =>
    obtain rfl : held = [] := hordered
    exact h'
  | cons action todo ih =>
    cases action with
    | acquire l mode => exact ih hordered.2 h
    | release l => exact ih hordered h
    | call => exact ⟨h.1, ih hordered h.2⟩

namespace WellLocked

variable [LT α] {rank : L → α}

theorem append (h : WellLocked rank todo) (h' : WellLocked rank todo') :
    WellLocked rank (todo ++ todo') :=
  ⟨h.ordered.append h'.ordered, .append h.ordered h.bare h'.bare⟩

/-- Programs one after another, also cut off after any of them. -/
theorem flatten {segments : List (List (Action L))} (h : ∀ p ∈ segments, WellLocked rank p) :
    WellLocked rank segments.flatten := by
  induction segments with
  | nil => exact ⟨rfl, trivial⟩
  | cons p segments ih =>
    exact (h p List.mem_cons_self).append (ih fun q hq ↦ h q (List.mem_cons_of_mem _ hq))

theorem touch (l : L) (mode : Mode) : WellLocked rank (touch l mode) := by
  refine ⟨⟨fun h hh ↦ (by cases hh), ?_⟩, trivial⟩
  show [l].filter (· ≠ l) = []
  simp

theorem call : WellLocked rank [.call] := ⟨rfl, rfl, trivial⟩

end WellLocked

/-- Hand over hand along ascending locks. -/
theorem ordered_handOver [Preorder α] {rank : L → α} (mode : Mode) {l : L} {ls : List L}
    (h : (l :: ls).IsChain (rank · < rank ·)) : Ordered rank [l] (handOver mode l ls) := by
  induction ls generalizing l with
  | nil =>
    show [l].filter (· ≠ l) = []
    simp
  | cons l' ls ih =>
    obtain ⟨hlt, hchain⟩ := List.isChain_cons_cons.1 h
    have hne : l' ≠ l := fun heq ↦ lt_irrefl _ (heq ▸ hlt)
    refine ⟨fun h hh ↦ by rwa [List.mem_singleton.1 hh], ?_⟩
    show Ordered rank ([l', l].filter (· ≠ l)) (handOver mode l' ls)
    have hfilter : [l', l].filter (· ≠ l) = [l'] := by simp [hne]
    rw [hfilter]
    exact ih hchain

theorem bareCalls_handOver (mode : Mode) (l : L) (ls : List L) (held : List L) :
    BareCalls held (handOver mode l ls) := by
  induction ls generalizing l held with
  | nil => trivial
  | cons l' ls ih => exact ih l' _

theorem WellLocked.sweep [Preorder α] {rank : L → α} (mode : Mode) {ls : List L}
    (h : ls.IsChain (rank · < rank ·)) : WellLocked rank (sweep mode ls) := by
  cases ls with
  | nil => exact ⟨rfl, trivial⟩
  | cons l ls =>
    exact ⟨⟨fun h hh ↦ (by cases hh), ordered_handOver mode h⟩, bareCalls_handOver mode l ls _⟩

end Composition

end Programs

namespace Task

variable {κ L : Type*}

/-- The locks the task holds. -/
def locks (task : Task κ L) : List L := task.held.map Prod.fst

/-- The locks the task holds once it has the one it waits for. -/
def stack (task : Task κ L) : List L :=
  match task.status with
  | .waiting l _ _ => l :: task.locks
  | _ => task.locks

/-- The task has done all its actions. -/
def Finished (task : Task κ L) : Prop := task.status = .ready ∧ task.todo = []

/-- The task waits for an answer. -/
def Calling (task : Task κ L) : Prop := task.status = .calling

/-- What the task waits for. -/
def wanted (task : Task κ L) : Option (L × Mode × ℕ) :=
  match task.status with
  | .waiting l mode ticket => some (l, mode, ticket)
  | _ => none

section Stack

variable {task : Task κ L}

theorem wanted_eq_some {l : L} {mode : Mode} {ticket : ℕ} :
    task.wanted = some (l, mode, ticket) ↔ task.status = .waiting l mode ticket := by
  cases h : task.status <;> simp [wanted, h]

theorem stack_of_ready (h : task.status = .ready) : task.stack = task.locks := by
  rw [stack, h]

theorem stack_of_calling (h : task.status = .calling) : task.stack = task.locks := by
  rw [stack, h]

theorem stack_of_waiting {l : L} {mode : Mode} {ticket : ℕ}
    (h : task.status = .waiting l mode ticket) : task.stack = l :: task.locks := by
  rw [stack, h]

end Stack

/-- The task does not stand in the way of a grant of `l`: it holds the lock for reading like the one
who asks, or not at all, and has not come earlier. -/
def lets [DecidableEq L] (task : Task κ L) (l : L) (mode : Mode) (ticket : ℕ) : Bool :=
  task.held.all (fun h ↦ h.1 ≠ l || (mode == .read && h.2 == .read)) &&
    match task.status with
    | .waiting l' _ ticket' => l' ≠ l || ticket ≤ ticket'
    | _ => true

/-- What is left to do, in steps. -/
def remaining (task : Task κ L) : ℕ :=
  2 * task.todo.length + match task.status with
    | .ready => 0
    | _ => 1

end Task

namespace State

variable {κ L : Type*} [DecidableEq L] (program : κ → List (Action L)) (s : State κ L)

/-- Task `j` is now `task`. -/
def move (j : ℕ) (task : Task κ L) : State κ L := { s with tasks := s.tasks.set j task }

/-- The next action of task `j`. -/
def act (j : ℕ) (task : Task κ L) : List (Action L) → Option (State κ L)
  | .acquire l mode :: todo =>
    some
      { tasks := s.tasks.set j { task with todo := todo, status := .waiting l mode s.arrivals }
        arrivals := s.arrivals + 1 }
  | .release l :: todo =>
    some (s.move j { task with todo := todo, held := task.held.filter (·.1 ≠ l) })
  | .call :: todo => some (s.move j { task with todo := todo, status := .calling })
  | [] => none

/-- One step. -/
def step? : Op κ → Option (State κ L)
  | .spawn k => some { s with tasks := s.tasks ++ [⟨k, program k, [], .ready⟩] }
  | .act j =>
    match s.tasks[j]? with
    | some task =>
      match task.status with
      | .ready => s.act j task task.todo
      | _ => none
    | none => none
  | .grant j =>
    match s.tasks[j]? with
    | some task =>
      match task.status with
      | .waiting l mode ticket =>
        if s.tasks.all (·.lets l mode ticket) then
          some (s.move j { task with held := (l, mode) :: task.held, status := .ready })
        else none
      | _ => none
    | none => none
  | .reply j =>
    match s.tasks[j]? with
    | some task =>
      match task.status with
      | .calling => some (s.move j { task with status := .ready })
      | _ => none
    | none => none

/-- Task `i` waits for a lock that task `j` holds, or has asked for earlier. -/
def WaitsFor (i j : ℕ) : Prop :=
  ∃ task l mode ticket, s.tasks[i]? = some task ∧ task.status = .waiting l mode ticket ∧
    ∃ other, s.tasks[j]? = some other ∧
      (l ∈ other.locks ∨
        ∃ mode' ticket', other.status = .waiting l mode' ticket' ∧ ticket' < ticket)

/-- No tasks wait for one another in a cycle. -/
def Acyclic : Prop := ∀ i, ¬ Relation.TransGen s.WaitsFor i i

/-- What is left to do for all tasks together. -/
def remaining : ℕ := (s.tasks.map (·.remaining)).sum

end State

section Runs

variable {κ L : Type*} [DecidableEq L] (program : κ → List (Action L)) (allowed : κ → Prop)

/-- Only allowed programs are started. -/
def SpawnsAllowed : Op κ → Prop
  | .spawn k => allowed k
  | _ => True

instance [DecidablePred allowed] : ∀ op, Decidable (SpawnsAllowed allowed op)
  | .spawn k => inferInstanceAs (Decidable (allowed k))
  | .act _ => inferInstanceAs (Decidable True)
  | .grant _ => inferInstanceAs (Decidable True)
  | .reply _ => inferInstanceAs (Decidable True)

/-- The runs that start without tasks and spawn allowed ones. -/
def runs : TransitionSystem (State κ L) (Op κ) :=
  (TransitionSystem.ofPartial (· = ⟨[], 0⟩) (State.step? program)).guard
    fun _ ↦ SpawnsAllowed allowed

/-- The steps that need no answer from outside but the one task `j` waits for. -/
def SilentBut (j : ℕ) : Op κ → Prop
  | .spawn _ => False
  | .act _ => True
  | .grant _ => True
  | .reply i => i = j

/-- Task `j` can finish without any answer but its own. -/
def CanFinish (s : State κ L) (j : ℕ) : Prop :=
  ∃ s', ((runs program allowed).guard fun _ ↦ SilentBut j).Leads s s' ∧
    ∃ task, s'.tasks[j]? = some task ∧ task.Finished

end Runs

/-! ### What a step can do -/

/-- What a step makes of the task it moves. -/
inductive Task.Next {κ L : Type*} [DecidableEq L] (task : Task κ L) : Task κ L → Prop
  | ask {l : L} {mode : Mode} {todo : List (Action L)} (ticket : ℕ)
    (hstatus : task.status = .ready) (htodo : task.todo = .acquire l mode :: todo) :
    Next task { task with todo := todo, status := .waiting l mode ticket }
  | release {l : L} {todo : List (Action L)} (hstatus : task.status = .ready)
    (htodo : task.todo = .release l :: todo) :
    Next task { task with todo := todo, held := task.held.filter (·.1 ≠ l) }
  | call {todo : List (Action L)} (hstatus : task.status = .ready)
    (htodo : task.todo = .call :: todo) :
    Next task { task with todo := todo, status := .calling }
  | grant {l : L} {mode : Mode} {ticket : ℕ} (hstatus : task.status = .waiting l mode ticket) :
    Next task { task with held := (l, mode) :: task.held, status := .ready }
  | reply (hstatus : task.status = .calling) : Next task { task with status := .ready }

section Steps

variable {κ L : Type*} [DecidableEq L] {program : κ → List (Action L)} {s s' : State κ L}

theorem act_cases {j : ℕ} {task : Task κ L} (hstatus : task.status = .ready)
    (h : s.act j task task.todo = some s') :
    ∃ task', s'.tasks = s.tasks.set j task' ∧ task.Next task' := by
  cases htodo : task.todo with
  | nil =>
    rw [htodo] at h
    cases h
  | cons action todo =>
    rw [htodo] at h
    cases action with
    | acquire l mode =>
      obtain rfl := Option.some.inj h
      exact ⟨_, rfl, .ask s.arrivals hstatus htodo⟩
    | release l =>
      obtain rfl := Option.some.inj h
      exact ⟨_, rfl, .release hstatus htodo⟩
    | call =>
      obtain rfl := Option.some.inj h
      exact ⟨_, rfl, .call hstatus htodo⟩

/-- A step spawns a task or moves one. -/
theorem step?_cases {op : Op κ} (h : s.step? program op = some s') :
    (∃ k, op = .spawn k ∧ s'.tasks = s.tasks ++ [⟨k, program k, [], .ready⟩]) ∨
      ∃ j task task', s.tasks[j]? = some task ∧ s'.tasks = s.tasks.set j task' ∧
        task.Next task' := by
  cases op with
  | spawn k =>
    obtain rfl := Option.some.inj h
    exact .inl ⟨k, rfl, rfl⟩
  | act j =>
    simp only [State.step?] at h
    split at h
    · next task hj =>
      split at h
      · next hstatus =>
        obtain ⟨task', htasks, hnext⟩ := act_cases hstatus h
        exact .inr ⟨j, task, task', hj, htasks, hnext⟩
      · cases h
    · cases h
  | grant j =>
    simp only [State.step?] at h
    split at h
    · next task hj =>
      split at h
      · next l mode ticket hstatus =>
        obtain ⟨-, h⟩ := Option.ite_none_right_eq_some.1 h
        obtain rfl := Option.some.inj h
        exact .inr ⟨j, task, _, hj, rfl, .grant hstatus⟩
      · cases h
    · cases h
  | reply j =>
    simp only [State.step?] at h
    split at h
    · next task hj =>
      split at h
      · next hstatus =>
        obtain rfl := Option.some.inj h
        exact .inr ⟨j, task, _, hj, rfl, .reply hstatus⟩
      · cases h
    · cases h

end Steps

/-! ### Disciplined tasks -/

section Discipline

variable {κ L α : Type*} [DecidableEq L] {program : κ → List (Action L)} {allowed : κ → Prop}
  {s s' : State κ L} {task task' : Task κ L}

/-- The task goes on in ascending rank, also with the lock it waits for. -/
structure Task.Disciplined [LT α] (rank : L → α) (task : Task κ L) : Prop where
  ordered : Ordered rank task.stack task.todo
  ascending : ∀ l mode ticket, task.status = .waiting l mode ticket →
    ∀ h ∈ task.locks, rank h < rank l

/-- The task holds no lock while it waits for an answer, now and later. -/
structure Task.Bare (task : Task κ L) : Prop where
  later : BareCalls task.stack task.todo
  now : task.Calling → task.locks = []

theorem Task.stack_release (hstatus : task.status = .ready) (l : L) (todo : List (Action L)) :
    Task.stack { task with todo := todo, held := task.held.filter (·.1 ≠ l) } =
      task.locks.filter (· ≠ l) := by
  simp only [Task.stack, hstatus, Task.locks, List.filter_map]
  rfl

namespace Task.Disciplined

variable [LT α] {rank : L → α}

theorem spawn (k : κ) (h : Ordered rank [] (program k)) :
    Disciplined rank (⟨k, program k, [], .ready⟩ : Task κ L) where
  ordered := h
  ascending l mode ticket hstatus := by cases hstatus

theorem next (h : task.Disciplined rank) (hnext : task.Next task') : task'.Disciplined rank := by
  have hordered := h.ordered
  cases hnext with
  | ask ticket hstatus htodo =>
    rw [Task.stack_of_ready hstatus, htodo] at hordered
    -- the lock asked for counts as held from here on
    refine ⟨hordered.2, fun l mode ticket hwaiting ↦ ?_⟩
    obtain ⟨rfl, -, -⟩ := Status.waiting.inj hwaiting
    exact hordered.1
  | release hstatus htodo =>
    rw [Task.stack_of_ready hstatus, htodo] at hordered
    refine ⟨?_, fun l mode ticket hwaiting ↦ ?_⟩
    · rw [Task.stack_release hstatus]
      exact hordered
    · rw [hstatus] at hwaiting
      cases hwaiting
  | call hstatus htodo =>
    rw [Task.stack_of_ready hstatus, htodo] at hordered
    exact ⟨hordered, fun l mode ticket hwaiting ↦ by cases hwaiting⟩
  | grant hstatus =>
    rw [Task.stack_of_waiting hstatus] at hordered
    exact ⟨hordered, fun l mode ticket hwaiting ↦ by cases hwaiting⟩
  | reply hstatus =>
    rw [Task.stack_of_calling hstatus] at hordered
    exact ⟨hordered, fun l mode ticket hwaiting ↦ by cases hwaiting⟩

/-- A task that has finished holds nothing. -/
theorem locks_of_finished (h : task.Disciplined rank) (hfinished : task.Finished) :
    task.locks = [] := by
  have hordered := h.ordered
  rw [Task.stack_of_ready hfinished.1, hfinished.2] at hordered
  exact hordered

end Task.Disciplined

namespace Task.Bare

theorem spawn (k : κ) (h : BareCalls [] (program k)) :
    Bare (⟨k, program k, [], .ready⟩ : Task κ L) where
  later := h
  now hcalling := by cases hcalling

theorem next (h : task.Bare) (hnext : task.Next task') : task'.Bare := by
  have hlater := h.later
  cases hnext with
  | ask ticket hstatus htodo =>
    rw [Task.stack_of_ready hstatus, htodo] at hlater
    exact ⟨hlater, fun hcalling ↦ by cases hcalling⟩
  | release hstatus htodo =>
    rw [Task.stack_of_ready hstatus, htodo] at hlater
    refine ⟨?_, fun hcalling ↦ ?_⟩
    · rw [Task.stack_release hstatus]
      exact hlater
    · rw [Task.Calling, hstatus] at hcalling
      cases hcalling
  | call hstatus htodo =>
    rw [Task.stack_of_ready hstatus, htodo] at hlater
    exact ⟨hlater.2, fun _ ↦ hlater.1⟩
  | grant hstatus =>
    rw [Task.stack_of_waiting hstatus] at hlater
    exact ⟨hlater, fun hcalling ↦ by cases hcalling⟩
  | reply hstatus =>
    rw [Task.stack_of_calling hstatus] at hlater
    exact ⟨hlater, fun hcalling ↦ by cases hcalling⟩

end Task.Bare

/-- What holds of every task when it is spawned and survives its steps holds of all tasks in every
run. -/
theorem forall_tasks_invariant {P : Task κ L → Prop}
    (hspawn : ∀ k, allowed k → P ⟨k, program k, [], .ready⟩)
    (hnext : ∀ task task', P task → task.Next task' → P task') :
    (runs program allowed).Invariant fun s ↦ ∀ task ∈ s.tasks, P task where
  init s hs := by
    obtain rfl := hs
    intro task htask
    cases htask
  step s op s' h hstep := by
    obtain ⟨hstep, hallowed⟩ := hstep
    intro task htask
    rcases step?_cases hstep with ⟨k, rfl, htasks⟩ | ⟨j, old, new, hj, htasks, hmove⟩
    · rw [htasks] at htask
      rcases List.mem_append.1 htask with htask | htask
      · exact h task htask
      · obtain rfl := List.mem_singleton.1 htask
        exact hspawn k hallowed
    · rw [htasks] at htask
      rcases List.mem_or_eq_of_mem_set htask with htask | rfl
      · exact h task htask
      · exact hnext old _ (h old (List.mem_of_getElem? hj)) hmove

theorem disciplined_of_reachable [LT α] {rank : L → α}
    (hprograms : ∀ k, allowed k → Ordered rank [] (program k))
    (hs : (runs program allowed).Reachable s) : ∀ task ∈ s.tasks, task.Disciplined rank :=
  (forall_tasks_invariant (fun k hk ↦ Task.Disciplined.spawn k (hprograms k hk))
    fun _ _ h hnext ↦ h.next hnext).of_reachable hs

theorem bare_of_reachable (hprograms : ∀ k, allowed k → BareCalls [] (program k))
    (hs : (runs program allowed).Reachable s) : ∀ task ∈ s.tasks, task.Bare :=
  (forall_tasks_invariant (fun k hk ↦ Task.Bare.spawn k (hprograms k hk))
    fun _ _ h hnext ↦ h.next hnext).of_reachable hs

end Discipline

/-! ### No cycle of waiting tasks -/

section Acyclic

variable {κ L α : Type*} [DecidableEq L] [Preorder α] {rank : L → α} {s : State κ L}

/-- A waiting task that another one waits for waits for a lock of a higher rank, or has come earlier
for the same one. -/
theorem later_of_waitsFor (htasks : ∀ task ∈ s.tasks, task.Disciplined rank) {i j : ℕ}
    (h : s.WaitsFor i j) {task other : Task κ L} (hi : s.tasks[i]? = some task)
    (hj : s.tasks[j]? = some other) {l l' : L} {mode mode' : Mode} {ticket ticket' : ℕ}
    (hwaiting : task.status = .waiting l mode ticket)
    (hother : other.status = .waiting l' mode' ticket') :
    rank l < rank l' ∨ l = l' ∧ ticket' < ticket := by
  obtain ⟨task', l₁, mode₁, ticket₁, hi', hwaiting', other', hj', hblocks⟩ := h
  obtain rfl := Option.some.inj (hi.symm.trans hi')
  obtain rfl := Option.some.inj (hj.symm.trans hj')
  obtain ⟨rfl, rfl, rfl⟩ := Status.waiting.inj (hwaiting.symm.trans hwaiting')
  rcases hblocks with hheld | ⟨mode₂, ticket₂, hother', hlt⟩
  · -- it holds the lock, so what it waits for ranks higher
    have hdisciplined := htasks other (List.mem_of_getElem? hj)
    exact .inl (hdisciplined.ascending l' mode' ticket' hother _ hheld)
  · obtain ⟨rfl, rfl, rfl⟩ := Status.waiting.inj (hother.symm.trans hother')
    exact .inr ⟨rfl, hlt⟩

/-- So does every waiting task at the end of a chain of waiting tasks. -/
theorem later_of_transGen (htasks : ∀ task ∈ s.tasks, task.Disciplined rank) {i j : ℕ}
    (h : Relation.TransGen s.WaitsFor i j) {task other : Task κ L} (hi : s.tasks[i]? = some task)
    (hj : s.tasks[j]? = some other) {l l' : L} {mode mode' : Mode} {ticket ticket' : ℕ}
    (hwaiting : task.status = .waiting l mode ticket)
    (hother : other.status = .waiting l' mode' ticket') :
    rank l < rank l' ∨ l = l' ∧ ticket' < ticket := by
  induction h generalizing other l' mode' ticket' with
  | single hstep => exact later_of_waitsFor htasks hstep hi hj hwaiting hother
  | tail _ hstep ih =>
    obtain ⟨between, l₁, mode₁, ticket₁, hk, hbetween, -⟩ := id hstep
    rcases ih hk hbetween with hlt | ⟨rfl, hlt⟩
    · rcases later_of_waitsFor htasks hstep hk hj hbetween hother with hlt' | ⟨rfl, -⟩
      · exact .inl (hlt.trans hlt')
      · exact .inl hlt
    · rcases later_of_waitsFor htasks hstep hk hj hbetween hother with hlt' | ⟨rfl, hlt'⟩
      · exact .inl hlt'
      · exact .inr ⟨rfl, hlt'.trans hlt⟩

theorem acyclic_of_disciplined (htasks : ∀ task ∈ s.tasks, task.Disciplined rank) :
    s.Acyclic := by
  intro i h
  obtain ⟨j, hstep, -⟩ := Relation.TransGen.head'_iff.1 h
  obtain ⟨task, l, mode, ticket, hi, hwaiting, -⟩ := hstep
  rcases later_of_transGen htasks h hi hi hwaiting hwaiting with hlt | ⟨-, hlt⟩
  · exact lt_irrefl _ hlt
  · exact lt_irrefl _ hlt

/-- **No deadlock.** Programs that take their locks in ascending rank never wait for one another in
a cycle. -/
theorem acyclic_of_reachable {program : κ → List (Action L)} {allowed : κ → Prop}
    (hprograms : ∀ k, allowed k → Ordered rank [] (program k))
    (hs : (runs program allowed).Reachable s) : s.Acyclic :=
  acyclic_of_disciplined (disciplined_of_reachable hprograms hs)

end Acyclic

/-! ### Every task can finish -/

section Progress

variable {κ L α : Type*} [DecidableEq L] {rank : L → α} {program : κ → List (Action L)}
  {allowed : κ → Prop} {s s' : State κ L}

/-- Every step of a task leaves it less to do. -/
theorem Task.Next.remaining_lt {task task' : Task κ L} (h : task.Next task') :
    task'.remaining < task.remaining := by
  cases h with
  | ask ticket hstatus htodo =>
    simp only [Task.remaining, hstatus, htodo, List.length_cons]
    omega
  | release hstatus htodo =>
    simp only [Task.remaining, hstatus, htodo, List.length_cons]
    omega
  | call hstatus htodo =>
    simp only [Task.remaining, hstatus, htodo, List.length_cons]
    omega
  | grant hstatus =>
    simp only [Task.remaining, hstatus]
    omega
  | reply hstatus =>
    simp only [Task.remaining, hstatus]
    omega

theorem remaining_lt {op : Op κ} {j : ℕ} (h : s.step? program op = some s')
    (hsilent : SilentBut j op) : s'.remaining < s.remaining := by
  rcases step?_cases h with ⟨k, rfl, -⟩ | ⟨i, task, task', hi, htasks, hnext⟩
  · cases hsilent
  · rw [State.remaining, htasks]
    exact Tasks.sum_map_set_lt hi hnext.remaining_lt

theorem step?_grant {i : ℕ} {task : Task κ L} {l : L} {mode : Mode} {ticket : ℕ}
    (hi : s.tasks[i]? = some task) (hstatus : task.status = .waiting l mode ticket)
    (hlets : s.tasks.all (·.lets l mode ticket)) :
    s.step? program (.grant i) =
      some (s.move i { task with held := (l, mode) :: task.held, status := .ready }) := by
  simp only [State.step?, hi, hstatus]
  exact if_pos hlets

theorem step?_reply {i : ℕ} {task : Task κ L} (hi : s.tasks[i]? = some task)
    (hstatus : task.status = .calling) :
    s.step? program (.reply i) = some (s.move i { task with status := .ready }) := by
  simp only [State.step?, hi, hstatus]

/-- A task that is ready and has something left to do can do it. -/
theorem exists_step?_act (program : κ → List (Action L)) {i : ℕ} {task : Task κ L}
    (hi : s.tasks[i]? = some task)
    (hstatus : task.status = .ready) (htodo : task.todo ≠ []) :
    ∃ s', s.step? program (.act i) = some s' := by
  simp only [State.step?, hi, hstatus]
  cases h : task.todo with
  | nil => exact absurd h htodo
  | cons action todo => cases action <;> exact ⟨_, rfl⟩

/-- A task that does not hold the lock and has not come earlier for it. -/
theorem Task.lets_of {task : Task κ L} {l : L} {mode : Mode} {ticket : ℕ} (hheld : l ∉ task.locks)
    (hcame : ∀ mode' ticket', task.status = .waiting l mode' ticket' → ticket ≤ ticket') :
    task.lets l mode ticket := by
  rw [Task.lets, Bool.and_eq_true, List.all_eq_true]
  constructor
  · intro h hmem
    have hne : h.1 ≠ l := fun heq ↦ hheld (heq ▸ List.mem_map_of_mem hmem)
    simp [hne]
  · split
    · next l' mode' ticket' hstatus =>
      rcases eq_or_ne l' l with rfl | hne
      · simpa using hcame mode' ticket' hstatus
      · simp [hne]
    · rfl

/-- Of all tasks that wait, one that came first for a lock of the highest rank gets it, where only
waiting tasks hold anything. -/
theorem exists_grant [LinearOrder α] (program : κ → List (Action L))
    (htasks : ∀ task ∈ s.tasks, task.Disciplined rank)
    (hidle : ∀ task ∈ s.tasks, task.wanted = none → task.locks = [])
    (hwaiting : ∃ task ∈ s.tasks, task.wanted ≠ none) :
    ∃ i s', s.step? program (.grant i) = some s' := by
  obtain ⟨first, hfirst, hwants⟩ := hwaiting
  -- the highest lock wanted, and who came first for it
  obtain ⟨top, htop⟩ : ∃ top, (s.tasks.filterMap Task.wanted).argmax (rank ·.1) = some top := by
    rw [← Option.ne_none_iff_exists', ne_eq, List.argmax_eq_none, List.filterMap_eq_nil_iff]
    exact fun h ↦ hwants (h first hfirst)
  have hmax : ∀ w ∈ s.tasks.filterMap Task.wanted, rank w.1 ≤ rank top.1 :=
    fun w hw ↦ List.le_of_mem_argmax (f := fun w : L × Mode × ℕ ↦ rank w.1) hw htop
  obtain ⟨⟨l, mode, ticket⟩, hturn⟩ : ∃ turn,
      ((s.tasks.filterMap Task.wanted).filter (·.1 = top.1)).argmin (·.2.2) = some turn := by
    rw [← Option.ne_none_iff_exists', ne_eq, List.argmin_eq_none, List.filter_eq_nil_iff]
    exact fun h ↦ h top (List.argmax_mem htop) (by simp)
  have hmem := List.argmin_mem hturn
  obtain ⟨hwanted, rfl⟩ : (l, mode, ticket) ∈ s.tasks.filterMap Task.wanted ∧ l = top.1 := by
    simpa using hmem
  obtain ⟨task, htask, hstatus⟩ := List.mem_filterMap.1 hwanted
  obtain ⟨i, hi⟩ := List.getElem?_of_mem htask
  have hlets : s.tasks.all (·.lets top.1 mode ticket) := by
    refine List.all_eq_true.2 fun other hother ↦ Task.lets_of (fun hheld ↦ ?_) ?_
    · cases hw : other.wanted with
      | none =>
        rw [hidle other hother hw] at hheld
        cases hheld
      | some w =>
        obtain ⟨l', mode', ticket'⟩ := w
        have hlt := (htasks other hother).ascending l' mode' ticket' (Task.wanted_eq_some.1 hw) _
          hheld
        exact absurd hlt (hmax _ (List.mem_filterMap.2 ⟨other, hother, hw⟩)).not_gt
    · intro mode' ticket' hwaiting
      have hw := List.mem_filterMap.2 ⟨other, hother, Task.wanted_eq_some.2 hwaiting⟩
      exact List.le_of_mem_argmin (f := fun w : L × Mode × ℕ ↦ w.2.2)
        (List.mem_filter.2 ⟨hw, by simp⟩) hturn
  exact ⟨i, _, step?_grant hi (Task.wanted_eq_some.1 hstatus) hlets⟩

/-- Unless task `j` has finished, some step can be taken that needs no answer but its own. -/
theorem exists_silent_step [LinearOrder α] (program : κ → List (Action L))
    (htasks : ∀ task ∈ s.tasks, task.Disciplined rank)
    (hbare : ∀ task ∈ s.tasks, task.Bare) {j : ℕ} {task : Task κ L} (hj : s.tasks[j]? = some task)
    (hnot : ¬ task.Finished) : ∃ op s', SilentBut j op ∧ s.step? program op = some s' := by
  by_cases hcalling : task.Calling
  · exact ⟨.reply j, _, rfl, step?_reply hj hcalling⟩
  by_cases hact : ∃ (i : ℕ) (other : Task κ L),
      s.tasks[i]? = some other ∧ other.status = .ready ∧ other.todo ≠ []
  · obtain ⟨i, other, hi, hstatus, htodo⟩ := hact
    obtain ⟨s', hstep⟩ := exists_step?_act program hi hstatus htodo
    exact ⟨.act i, s', trivial, hstep⟩
  -- the tasks that do not wait have finished or are calling
  have hready : ∀ other ∈ s.tasks, other.status = .ready → other.todo = [] := by
    intro other hother hstatus
    obtain ⟨i, hi⟩ := List.getElem?_of_mem hother
    by_contra htodo
    exact hact ⟨i, other, hi, hstatus, htodo⟩
  have hidle : ∀ other ∈ s.tasks, other.wanted = none → other.locks = [] := by
    intro other hother hwanted
    cases hstatus : other.status with
    | ready => exact (htasks other hother).locks_of_finished ⟨hstatus, hready other hother hstatus⟩
    | waiting l mode ticket =>
      rw [Task.wanted_eq_some.2 hstatus] at hwanted
      cases hwanted
    | calling => exact (hbare other hother).now hstatus
  have hmem := List.mem_of_getElem? hj
  have hwaiting : task.wanted ≠ none := by
    intro hwanted
    cases hstatus : task.status with
    | ready => exact hnot ⟨hstatus, hready task hmem hstatus⟩
    | waiting l mode ticket =>
      rw [Task.wanted_eq_some.2 hstatus] at hwanted
      cases hwanted
    | calling => exact hcalling hstatus
  obtain ⟨i, s', hstep⟩ := exists_grant program htasks hidle ⟨task, hmem, hwaiting⟩
  exact ⟨.grant i, s', trivial, hstep⟩

/-- A step loses no task. -/
theorem exists_task_of_silent {op : Op κ} {j : ℕ} (h : s.step? program op = some s')
    (hsilent : SilentBut j op) (hj : ∃ task, s.tasks[j]? = some task) :
    ∃ task, s'.tasks[j]? = some task := by
  rcases step?_cases h with ⟨k, rfl, -⟩ | ⟨i, task, task', hi, htasks, -⟩
  · cases hsilent
  · obtain ⟨task, hj⟩ := hj
    have hlt := (List.getElem?_eq_some_iff.1 hj).1
    rw [htasks]
    exact ⟨_, List.getElem?_eq_getElem (by rwa [List.length_set])⟩

/-- **A silent outside is in nobody's way.** If the programs take their locks in ascending rank and
hold none over a call, every task can finish, whatever answers to the others are still to come. -/
theorem canFinish_of_reachable [LinearOrder α]
    (hordered : ∀ k, allowed k → Ordered rank [] (program k))
    (hbare : ∀ k, allowed k → BareCalls [] (program k))
    (hs : (runs program allowed).Reachable s) {j : ℕ} (hj : ∃ task, s.tasks[j]? = some task) :
    CanFinish program allowed s j := by
  -- induction on what is left to do, of which every silent step does some
  induction hn : s.remaining using Nat.strong_induction_on generalizing s with
  | h n ih =>
    obtain ⟨task, htask⟩ := hj
    by_cases hfinished : task.Finished
    · exact ⟨s, .refl, task, htask, hfinished⟩
    · obtain ⟨op, s', hsilent, hstep⟩ := exists_silent_step program
        (disciplined_of_reachable hordered hs) (bare_of_reachable hbare hs) htask hfinished
      have hallowed : SpawnsAllowed allowed op := by
        cases op with
        | spawn k => cases hsilent
        | act i => trivial
        | grant i => trivial
        | reply i => trivial
      have hlt := remaining_lt hstep hsilent
      obtain ⟨s'', hleads, hdone⟩ := ih _ (hn ▸ hlt) (hs.step ⟨hstep, hallowed⟩)
        (exists_task_of_silent hstep hsilent ⟨task, htask⟩) rfl
      exact ⟨s'', .head ⟨op, ⟨hstep, hallowed⟩, hsilent⟩ hleads, hdone⟩

end Progress

/-- Where no step can be taken without another's answer, a task that has not finished cannot. -/
theorem not_canFinish_of_stuck {κ L : Type*} [DecidableEq L] {program : κ → List (Action L)}
    {allowed : κ → Prop} {s : State κ L} {j : ℕ} {task : Task κ L} (hj : s.tasks[j]? = some task)
    (hnot : ¬ task.Finished) (hstuck : ∀ op, SilentBut j op → s.step? program op = none) :
    ¬ CanFinish program allowed s j := by
  rintro ⟨s', hleads, task', hj', hfinished⟩
  rcases Relation.ReflTransGen.cases_head hleads with rfl | ⟨t, ⟨op, ⟨hstep, -⟩, hsilent⟩, -⟩
  · obtain rfl := Option.some.inj (hj.symm.trans hj')
    exact hnot hfinished
  · have hnone := hstuck op hsilent
    rw [show s.step? program op = some t from hstep] at hnone
    cases hnone

/-! ### A task alone -/

section Alone

variable {κ L : Type*} [DecidableEq L] {program : κ → List (Action L)} {allowed : κ → Prop} {k : κ}
  {l : L} {mode : Mode} {todo : List (Action L)} {held : List (L × Mode)}

/-- Some run leads to this task and no other. -/
def Alone (program : κ → List (Action L)) (allowed : κ → Prop) (task : Task κ L) : Prop :=
  ∃ arrivals, (runs program allowed).Reachable ⟨[task], arrivals⟩

namespace Alone

theorem spawn (hk : allowed k) : Alone program allowed ⟨k, program k, [], .ready⟩ :=
  ⟨0, .step (l := .spawn k) (.init rfl) ⟨rfl, hk⟩⟩

theorem acquire (h : Alone program allowed ⟨k, .acquire l mode :: todo, held, .ready⟩)
    (hl : l ∉ held.map Prod.fst) : Alone program allowed ⟨k, todo, (l, mode) :: held, .ready⟩ := by
  obtain ⟨n, h⟩ := h
  have hasked : (runs program allowed).Reachable ⟨[⟨k, todo, held, .waiting l mode n⟩], n + 1⟩ :=
    h.step (l := .act 0) ⟨rfl, trivial⟩
  have hlets : [(⟨k, todo, held, .waiting l mode n⟩ : Task κ L)].all (·.lets l mode n) := by
    refine List.all_eq_true.2 fun task htask ↦ ?_
    obtain rfl := List.mem_singleton.1 htask
    refine Task.lets_of hl fun mode' ticket' hwaiting ↦ ?_
    obtain ⟨-, -, rfl⟩ := Status.waiting.inj hwaiting
    exact le_rfl
  have hgrant : State.step? program ⟨[⟨k, todo, held, .waiting l mode n⟩], n + 1⟩ (.grant 0) =
      some ⟨[⟨k, todo, (l, mode) :: held, .ready⟩], n + 1⟩ := if_pos hlets
  exact ⟨n + 1, hasked.step ⟨hgrant, trivial⟩⟩

theorem release (h : Alone program allowed ⟨k, .release l :: todo, held, .ready⟩) :
    Alone program allowed ⟨k, todo, held.filter (·.1 ≠ l), .ready⟩ := by
  obtain ⟨n, h⟩ := h
  exact ⟨n, h.step (l := .act 0) ⟨rfl, trivial⟩⟩

theorem call (h : Alone program allowed ⟨k, .call :: todo, held, .ready⟩) :
    Alone program allowed ⟨k, todo, held, .calling⟩ := by
  obtain ⟨n, h⟩ := h
  exact ⟨n, h.step (l := .act 0) ⟨rfl, trivial⟩⟩

end Alone

end Alone

end Locking
