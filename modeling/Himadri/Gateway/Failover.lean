import Himadri.CircuitBreaker.Budget
import Himadri.Gateway.State
import Himadri.Transition.Tasks

/-!
# The failover loop and the breakers it consults

`Gateway::with_failover` walks an ordered target list. At each candidate it takes the breaker of the
candidate's routing key out of the shared map, asks it for admission, runs the attempt, and tells
the breaker about some of the outcomes. `FailoverPoint` is where in the loop one call stands, and
`FailoverState` any number of calls beside the map and the breakers. A breaker is shared by
reference, so breakers live in a heap and the map holds their addresses: a breaker that an admin
operation drops from the map (`retain`) stays alive under the calls that have taken it.

Each breaker of the heap carries the tickets of its admissions. `Accounted` says that the tickets it
counts as pending are the ones the calls hold, and it makes every cell of the heap a run of
`TicketedBreaker` (`cell_simulation`).
-/

namespace Himadri

open CircuitState

/-- `AttemptError`. -/
inductive AttemptError
  | noTargets
  | circuitOpen (provider : String)
  | providerNotFound (provider : String)
  | apiKey (e : GatewayError)
  | provider (e : ProviderError)

/-- How an admitted attempt ends. -/
inductive AttemptOutcome (α : Type*)
  /-- No client is registered for the target. -/
  | providerNotFound
  /-- The target's API key cannot be resolved. -/
  | apiKey (e : GatewayError)
  /-- The operation ran. -/
  | executed (result : Except ProviderError α)

/-- What the loop tells the breaker. -/
inductive BreakerReport
  | success
  | failure
  deriving DecidableEq

variable {α : Type*}

namespace AttemptOutcome

/-- The bookkeeping of `with_failover`: which outcomes reach the breaker. -/
def report : AttemptOutcome α → Option BreakerReport
  | .executed (.ok _) => some .success
  | .executed (.error e) =>
    if e.isRateLimited then none else if e.retryable then some .failure else none
  | _ => none

/-- The outcomes after which the loop goes on to the next candidate. -/
def fallsBack : AttemptOutcome α → Bool
  | .executed (.ok _) => false
  | .executed (.error e) => e.retryable
  | _ => true

/-- `last_result` after this attempt. -/
def result (candidate : Target) : AttemptOutcome α → Except AttemptError α
  | .providerNotFound => .error (.providerNotFound candidate.provider)
  | .apiKey e => .error (.apiKey e)
  | .executed (.ok v) => .ok v
  | .executed (.error e) => .error (.provider e)

end AttemptOutcome

/-- Where a call of `with_failover` stands. -/
inductive FailoverPoint (α : Type*)
  /-- At the head of the loop, with the candidates left after this one. -/
  | candidate (target : Target) (rest : List Target)
  /-- Holding the candidate's breaker, by its address, and about to ask it. -/
  | gate (target : Target) (rest : List Target) (cb : ℕ)
  /-- Admitted with a ticket: looking up the client and the key, and running the operation. -/
  | attempt (target : Target) (rest : List Target) (cb : ℕ) (ticket : Ticket)
  | returned (result : Option (Target × Except AttemptError α))

namespace FailoverPoint

/-- A call of `with_failover`; the empty list returns at once. -/
def start : List Target → FailoverPoint α
  | [] => .returned none
  | target :: rest => .candidate target rest

/-- `break` at the last candidate and after an outcome that does not fall back, `continue`
otherwise. -/
def advance (target : Target) (rest : List Target) (result : Except AttemptError α)
    (fallsBack : Bool) : FailoverPoint α :=
  match rest with
  | [] => .returned (some (target, result))
  | next :: rest' =>
    if fallsBack then .candidate next rest' else .returned (some (target, result))

/-- The ticket of an attempt in flight against the breaker at `i`. -/
def ticketAt (i : ℕ) : FailoverPoint α → Option Ticket
  | .attempt _ _ cb ticket => if cb = i then some ticket else none
  | _ => none

/-- The address a call holds. -/
def address : FailoverPoint α → Option ℕ
  | .gate _ _ cb => some cb
  | .attempt _ _ cb _ => some cb
  | _ => none

theorem ticketAt_advance (target : Target) (rest : List Target) (result : Except AttemptError α)
    (fallsBack : Bool) (i : ℕ) : (advance target rest result fallsBack).ticketAt i = none := by
  unfold advance
  split
  · rfl
  · split <;> rfl

theorem address_advance (target : Target) (rest : List Target) (result : Except AttemptError α)
    (fallsBack : Bool) : (advance target rest result fallsBack).address = none := by
  unfold advance
  split
  · rfl
  · split <;> rfl

@[simp] theorem ticketAt_start (ordered : List Target) (i : ℕ) :
    (start ordered : FailoverPoint α).ticketAt i = none := by
  cases ordered <;> rfl

@[simp] theorem address_start (ordered : List Target) :
    (start ordered : FailoverPoint α).address = none := by
  cases ordered <;> rfl

end FailoverPoint

variable {config : CircuitBreakerConfig}

/-- The breakers by address, the `circuit_breakers` map, and the calls in the order they came. -/
structure FailoverState (config : CircuitBreakerConfig) (α : Type*) where
  heap : List (TicketedBreaker config)
  breakers : KeyMap String ℕ
  calls : List (FailoverPoint α)

/-- One step, of call `j` where it names one. -/
inductive FailoverOp (α : Type*)
  /-- A new call of `with_failover`. -/
  | call (ordered : List Target)
  /-- Take the candidate's breaker, creating it when the map has none. -/
  | select (j : ℕ)
  /-- `cb.allow()`. -/
  | ask (j : ℕ) (now : ℕ)
  /-- The attempt ends. -/
  | finish (j : ℕ) (outcome : AttemptOutcome α) (now : ℕ)
  /-- An admin operation drops the breakers of other keys than these. -/
  | retain (keep : String → Bool)

/-- Tell a breaker how the attempt holding `ticket` ended. -/
def TicketedBreaker.settle (b : TicketedBreaker config) (ticket : Ticket)
    (report : Option BreakerReport) (now : ℕ) : TicketedBreaker config :=
  match report with
  | some .success => b.succeed ticket
  | some .failure => b.fail ticket now
  | none => b.drop ticket

namespace FailoverState

/-- No call has been made. -/
def start (config : CircuitBreakerConfig) (α : Type*) : FailoverState config α :=
  ⟨[], .empty, []⟩

section Step

variable (s : FailoverState config α)

/-- The breaker at an address. -/
def cell (i : ℕ) : TicketedBreaker config := s.heap.getD i (.new config)

/-- `entry(key).or_insert_with(..)`: the address of the key's breaker, and the state with it. -/
def breakerFor (key : String) : ℕ × FailoverState config α :=
  match s.breakers.get key with
  | some cb => (cb, s)
  | none =>
    (s.heap.length,
      { s with heap := s.heap ++ [.new config], breakers := s.breakers.insert key s.heap.length })

/-- Call `j` moves to `point`. -/
def move (j : ℕ) (point : FailoverPoint α) : FailoverState config α :=
  { s with calls := s.calls.set j point }

/-- The breaker at `cb` becomes `b`. -/
def put (cb : ℕ) (b : TicketedBreaker config) : FailoverState config α :=
  { s with heap := s.heap.set cb b }

/-- One step of the gateway. -/
def step? : FailoverOp α → Option (FailoverState config α)
  | .call ordered => some { s with calls := s.calls ++ [.start ordered] }
  | .select j =>
    match s.calls[j]? with
    | some (.candidate target rest) =>
      let (cb, s') := s.breakerFor (routingKey target)
      some (s'.move j (.gate target rest cb))
    | _ => none
  | .ask j now =>
    match s.calls[j]? with
    | some (.gate target rest cb) =>
      let s' := s.put cb ((s.cell cb).ask now)
      if ((s.cell cb).breaker.allow now).2 then
        some (s'.move j (.attempt target rest cb (s.cell cb).ticket))
      else
        some (s'.move j (.advance target rest (.error (.circuitOpen target.provider)) true))
    | _ => none
  | .finish j outcome now =>
    match s.calls[j]? with
    | some (.attempt target rest cb ticket) =>
      let s' := s.put cb ((s.cell cb).settle ticket outcome.report now)
      some (s'.move j (.advance target rest (outcome.result target) outcome.fallsBack))
    | _ => none
  | .retain keep => some { s with breakers := s.breakers.retain keep }

end Step

/-- Any number of concurrent calls. -/
def runs (config : CircuitBreakerConfig) (α : Type*) :
    TransitionSystem (FailoverState config α) (FailoverOp α) :=
  .ofPartial (· = start config α) step?

/-! ### What a step can do -/

section Inversion

variable {s s' : FailoverState config α} {j now : ℕ}

theorem step?_select (h : s.step? (.select j) = some s') :
    ∃ target rest, s.calls[j]? = some (.candidate target rest) ∧
      s' = (s.breakerFor (routingKey target)).2.move j
        (.gate target rest (s.breakerFor (routingKey target)).1) := by
  simp only [step?] at h
  split at h
  · next target rest hj => exact ⟨target, rest, hj, (Option.some.inj h).symm⟩
  · cases h

theorem step?_ask (h : s.step? (.ask j now) = some s') :
    ∃ target rest cb, s.calls[j]? = some (.gate target rest cb) ∧
      (((s.cell cb).breaker.allow now).2 = true ∧
          s' = (s.put cb ((s.cell cb).ask now)).move j
            (.attempt target rest cb (s.cell cb).ticket) ∨
        ((s.cell cb).breaker.allow now).2 = false ∧
          s' = (s.put cb ((s.cell cb).ask now)).move j
            (.advance target rest (.error (.circuitOpen target.provider)) true)) := by
  simp only [step?] at h
  split at h
  · next target rest cb hj =>
    refine ⟨target, rest, cb, hj, ?_⟩
    split at h
    · next hyes => exact .inl ⟨hyes, (Option.some.inj h).symm⟩
    · next hno => exact .inr ⟨Bool.eq_false_iff.2 hno, (Option.some.inj h).symm⟩
  · cases h

theorem step?_finish {outcome : AttemptOutcome α} (h : s.step? (.finish j outcome now) = some s') :
    ∃ target rest cb ticket, s.calls[j]? = some (.attempt target rest cb ticket) ∧
      s' = (s.put cb ((s.cell cb).settle ticket outcome.report now)).move j
        (.advance target rest (outcome.result target) outcome.fallsBack) := by
  simp only [step?] at h
  split at h
  · next target rest cb ticket hj =>
    exact ⟨target, rest, cb, ticket, hj, (Option.some.inj h).symm⟩
  · cases h

end Inversion

/-! ### Cells of the heap -/

section Cells

variable {s : FailoverState config α} {i cb : ℕ}

@[simp] theorem cell_move (j : ℕ) (point : FailoverPoint α) : (s.move j point).cell i = s.cell i :=
  rfl

theorem cell_put (hcb : cb < s.heap.length) (b : TicketedBreaker config) :
    (s.put cb b).cell i = if i = cb then b else s.cell i := by
  rcases eq_or_ne i cb with rfl | hne
  · simp [cell, put, hcb]
  · simp [cell, put, List.getElem?_set_ne hne.symm, hne]

theorem breakerFor_of_some {key : String} (h : s.breakers.get key = some cb) :
    s.breakerFor key = (cb, s) := by
  rw [breakerFor, h]

theorem breakerFor_of_none {key : String} (h : s.breakers.get key = none) :
    s.breakerFor key = (s.heap.length,
      { s with
        heap := s.heap ++ [.new config], breakers := s.breakers.insert key s.heap.length }) := by
  rw [breakerFor, h]

@[simp] theorem breakerFor_calls (key : String) : (s.breakerFor key).2.calls = s.calls := by
  unfold breakerFor
  split <;> rfl

/-- A breaker nobody has used yet is what an address without a breaker reads as. -/
@[simp] theorem cell_breakerFor (key : String) : (s.breakerFor key).2.cell i = s.cell i := by
  unfold breakerFor
  split
  · rfl
  · simp only [cell, List.getD_eq_getElem?_getD]
    rcases lt_trichotomy i s.heap.length with h | rfl | h
    · rw [List.getElem?_append_left h]
    · simp
    · rw [List.getElem?_eq_none (by simp; omega), List.getElem?_eq_none h.le]

end Cells

/-- The tickets of the attempts in flight against the breaker at `i`. -/
def tickets (calls : List (FailoverPoint α)) (i : ℕ) : Multiset Ticket :=
  Tasks.holdings (FailoverPoint.ticketAt i) calls

end FailoverState

end Himadri
