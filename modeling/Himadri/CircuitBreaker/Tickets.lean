import Himadri.CircuitBreaker.Breaker
import Himadri.Transition.System
import Mathlib.Data.Multiset.AddSub
import Mathlib.Tactic.Common

/-!
# Which admission a result belongs to

The breaker's record has no notion of *whose* result it is told: `record_success` and
`record_failure` carry no argument. The system of this module adds that notion from outside. Each
time the breaker is half-open counts as one **episode**; every admitted attempt holds a **ticket**,
`ordinary` when it was admitted by the closed breaker and `probe n` when it was admitted by episode
`n`; and an attempt may report at any later time, in whatever state it then finds the breaker. An
attempt may also end without a report (`abandon`).

`probes` counts the successes an episode received from its own attempts. That only those close the
circuit holds in the runs whose late results keep out of half-open episodes (`Timely`), by one
invariant: the breaker's own success count is at most `probes`.
-/

namespace Himadri

open CircuitState

/-- How an attempt was admitted. -/
inductive Ticket
  /-- By the closed breaker. -/
  | ordinary
  /-- By half-open episode `n`. -/
  | probe (n : ℕ)
  deriving DecidableEq

/-- A breaker together with the attempts it has admitted. -/
structure TicketedBreaker (config : CircuitBreakerConfig) where
  breaker : CircuitBreaker config
  /-- How many half-open episodes have begun. -/
  episode : ℕ
  /-- The attempts admitted and not yet ended. -/
  pending : Multiset Ticket
  /-- The successes that the last episode received from its own attempts. -/
  probes : ℕ

/-- What can happen to the breaker. -/
inductive TicketOp
  | allow (now : ℕ)
  | success (t : Ticket)
  | failure (t : Ticket) (now : ℕ)
  /-- The attempt ends and the breaker is not told. -/
  | abandon (t : Ticket)

namespace TicketedBreaker

variable {config : CircuitBreakerConfig}

/-- A new breaker that has admitted nothing. -/
def new (config : CircuitBreakerConfig) : TicketedBreaker config where
  breaker := .new config
  episode := 0
  pending := 0
  probes := 0

section Step

variable (s : TicketedBreaker config)

/-- The ticket an attempt admitted now gets: an open breaker that admits begins an episode. -/
def ticket : Ticket :=
  match s.breaker.state with
  | stateClosed => .ordinary
  | stateOpen => .probe (s.episode + 1)
  | stateHalfOpen => .probe s.episode

/-- An admission at `now`. -/
def grant (now : ℕ) : TicketedBreaker config where
  breaker := (s.breaker.allow now).1
  episode := if s.breaker.state = stateOpen then s.episode + 1 else s.episode
  pending := s.ticket ::ₘ s.pending
  probes := if s.breaker.state = stateOpen then 0 else s.probes

/-- One request for admission at `now`, granted or not. -/
def ask (now : ℕ) : TicketedBreaker config :=
  if (s.breaker.allow now).2 then s.grant now else { s with breaker := (s.breaker.allow now).1 }

/-- The attempt holding `t` reports a success. -/
def succeed (t : Ticket) : TicketedBreaker config where
  breaker := s.breaker.recordSuccess
  episode := s.episode
  pending := s.pending.erase t
  probes := if t = .probe s.episode then s.probes + 1 else s.probes

/-- The attempt holding `t` reports a failure at `now`. -/
def fail (t : Ticket) (now : ℕ) : TicketedBreaker config :=
  { s with breaker := s.breaker.recordFailure now, pending := s.pending.erase t }

/-- The attempt holding `t` ends and reports nothing. -/
def drop (t : Ticket) : TicketedBreaker config := { s with pending := s.pending.erase t }

/-- One call. A result can be reported, or the attempt abandoned, only while the attempt is
pending. -/
def step? : TicketOp → Option (TicketedBreaker config)
  | .allow now => some (s.ask now)
  | .success t => if t ∈ s.pending then some (s.succeed t) else none
  | .failure t now => if t ∈ s.pending then some (s.fail t now) else none
  | .abandon t => if t ∈ s.pending then some (s.drop t) else none

@[simp] theorem succeed_breaker (t : Ticket) : (s.succeed t).breaker = s.breaker.recordSuccess :=
  rfl

@[simp] theorem succeed_probes (t : Ticket) :
    (s.succeed t).probes = if t = .probe s.episode then s.probes + 1 else s.probes := rfl

@[simp] theorem fail_breaker (t : Ticket) (now : ℕ) :
    (s.fail t now).breaker = s.breaker.recordFailure now := rfl

@[simp] theorem drop_breaker (t : Ticket) : (s.drop t).breaker = s.breaker := rfl

end Step

/-- The runs of a breaker with any number of attempts. -/
def runs (config : CircuitBreakerConfig) : TransitionSystem (TicketedBreaker config) TicketOp :=
  .ofPartial (· = new config) step?

/-! ### What a step can do -/

section Inversion

variable {s s' : TicketedBreaker config} {t : Ticket} {now : ℕ}

theorem step?_allow (h : s.step? (.allow now) = some s') :
    ((s.breaker.allow now).2 = true ∧ s' = s.grant now) ∨
      ((s.breaker.allow now).2 = false ∧ s' = { s with breaker := (s.breaker.allow now).1 }) := by
  rcases hr : (s.breaker.allow now).2 with - | -
  · exact .inr ⟨rfl, by simpa [step?, ask, hr] using h.symm⟩
  · exact .inl ⟨rfl, by simpa [step?, ask, hr] using h.symm⟩

theorem step?_success (h : s.step? (.success t) = some s') :
    t ∈ s.pending ∧ s' = s.succeed t := by
  obtain ⟨ht, hs'⟩ := Option.ite_none_right_eq_some.1 h
  exact ⟨ht, (Option.some.inj hs').symm⟩

theorem step?_failure (h : s.step? (.failure t now) = some s') :
    t ∈ s.pending ∧ s' = s.fail t now := by
  obtain ⟨ht, hs'⟩ := Option.ite_none_right_eq_some.1 h
  exact ⟨ht, (Option.some.inj hs').symm⟩

theorem step?_abandon (h : s.step? (.abandon t) = some s') :
    t ∈ s.pending ∧ s' = s.drop t := by
  obtain ⟨ht, hs'⟩ := Option.ite_none_right_eq_some.1 h
  exact ⟨ht, (Option.some.inj hs').symm⟩

end Inversion

/-! ### Genuine transitions -/

/-- The step closes a half-open breaker only after `half_open_max_calls` successes of the episode's
own attempts. -/
def ClosesOnProbes (s : TicketedBreaker config) (s' : TicketedBreaker config) : Prop :=
  s.breaker.state = stateHalfOpen → s'.breaker.state = stateClosed →
    config.halfOpenMaxCalls ≤ s'.probes

/-- The step opens a half-open breaker only as the failure of one of the episode's own attempts. -/
def OpensOnProbe (s : TicketedBreaker config) (op : TicketOp) (s' : TicketedBreaker config) :
    Prop :=
  s.breaker.state = stateHalfOpen → s'.breaker.state = stateOpen →
    ∃ now, op = .failure (.probe s.episode) now

/-- No late result reaches a half-open breaker: a result it is told belongs to an attempt of the
current episode. With `half_open_max_calls = 0` any success closes the circuit, so a late success is
harmless there. -/
def Timely (s : TicketedBreaker config) : TicketOp → Prop
  | .success t =>
    s.breaker.state = stateHalfOpen → config.halfOpenMaxCalls ≠ 0 → t = .probe s.episode
  | .failure t _ => s.breaker.state = stateHalfOpen → t = .probe s.episode
  | _ => True

instance (s : TicketedBreaker config) : ∀ op, Decidable (s.Timely op)
  | .success t => inferInstanceAs (Decidable (_ → _ → t = .probe s.episode))
  | .failure t _ => inferInstanceAs (Decidable (_ → t = .probe s.episode))
  | .allow _ => inferInstanceAs (Decidable True)
  | .abandon _ => inferInstanceAs (Decidable True)

/-- What the breaker counts in an episode are the episode's own successes. -/
def CountsProbes (s : TicketedBreaker config) : Prop :=
  s.breaker.state = stateHalfOpen → config.halfOpenMaxCalls ≠ 0 →
    s.breaker.inner.successCount ≤ s.probes

section Steps

variable {s s' : TicketedBreaker config} {t : Ticket} {now : ℕ}

theorem CountsProbes.step_allow (h : s.CountsProbes) (hstep : s.step? (.allow now) = some s') :
    s'.CountsProbes := by
  cases hst : s.breaker.inner.state with
  | stateClosed =>
    have hcall := BreakerInner.allow_closed hst config now
    obtain ⟨-, rfl⟩ | ⟨-, rfl⟩ := step?_allow hstep <;> intro hhalf <;>
      simp [grant, CircuitBreaker.allow, CircuitBreaker.state, hcall, hst] at hhalf
  | stateOpen =>
    rcases Nat.lt_or_ge (now - s.breaker.inner.lastFailureTime) config.recoveryMillis with ht | ht
    · have hcall := BreakerInner.allow_open_early hst ht
      obtain ⟨-, rfl⟩ | ⟨-, rfl⟩ := step?_allow hstep <;> intro hhalf <;>
        simp [grant, CircuitBreaker.allow, CircuitBreaker.state, hcall, hst] at hhalf
    · -- a new episode starts both counts at zero
      have hcall := BreakerInner.allow_open_late hst ht
      obtain ⟨-, rfl⟩ | ⟨-, rfl⟩ := step?_allow hstep <;> intro _ _ <;>
        simp [grant, CircuitBreaker.allow, hcall]
  | stateHalfOpen =>
    have hsame := (BreakerInner.allow_halfOpen hst config now).2
    obtain ⟨-, rfl⟩ | ⟨-, rfl⟩ := step?_allow hstep <;> intro _ hne <;>
      simpa [grant, CircuitBreaker.allow, CircuitBreaker.state, hsame, hst] using h hst hne

/-- A timely success moves both counts, or finds the breaker not half-open. -/
theorem CountsProbes.step_success (h : s.CountsProbes) (hok : s.Timely (.success t))
    (hstep : s.step? (.success t) = some s') : s'.CountsProbes ∧ ClosesOnProbes s s' := by
  obtain ⟨-, rfl⟩ := step?_success hstep
  cases hst : s.breaker.inner.state with
  | stateClosed =>
    have hcall := BreakerInner.recordSuccess_closed hst config
    refine ⟨fun hhalf ↦ ?_, fun hhalf ↦ ?_⟩
    · simp [CircuitBreaker.recordSuccess, CircuitBreaker.state, hcall, hst] at hhalf
    · simp [CircuitBreaker.state, hst] at hhalf
  | stateOpen =>
    have hcall := BreakerInner.recordSuccess_open hst config
    refine ⟨fun hhalf ↦ ?_, fun hhalf ↦ ?_⟩
    · simp [CircuitBreaker.recordSuccess, CircuitBreaker.state, hcall, hst] at hhalf
    · simp [CircuitBreaker.state, hst] at hhalf
  | stateHalfOpen =>
    rcases Nat.eq_zero_or_pos config.halfOpenMaxCalls with hz | hpos
    -- with a limit of zero there is nothing to count
    · exact ⟨fun _ hne ↦ absurd hz hne, fun _ _ ↦ by rw [hz]; exact Nat.zero_le _⟩
    have hown : t = .probe s.episode := hok hst hpos.ne'
    have hcount := h hst hpos.ne'
    rcases Nat.lt_or_ge (s.breaker.inner.successCount + 1) config.halfOpenMaxCalls with hm | hm
    · have hcall := BreakerInner.recordSuccess_halfOpen_more hst hm
      refine ⟨fun _ _ ↦ ?_, fun _ hclosed ↦ ?_⟩
      · simpa [CircuitBreaker.recordSuccess, hcall, hown] using hcount
      · simp [CircuitBreaker.recordSuccess, CircuitBreaker.state, hcall, hst] at hclosed
    · have hcall := BreakerInner.recordSuccess_halfOpen_last hst hm
      refine ⟨fun hhalf ↦ ?_, fun _ _ ↦ ?_⟩
      · simp [CircuitBreaker.recordSuccess, CircuitBreaker.state, hcall] at hhalf
      · simp only [hown, succeed_probes, if_true]
        omega

theorem CountsProbes.step_failure (hstep : s.step? (.failure t now) = some s') :
    s'.CountsProbes := by
  obtain ⟨-, rfl⟩ := step?_failure hstep
  exact fun hhalf ↦ absurd hhalf BreakerInner.recordFailure_state_ne_halfOpen

theorem CountsProbes.step (h : s.CountsProbes) {op : TicketOp} (hok : s.Timely op)
    (hstep : s.step? op = some s') : s'.CountsProbes := by
  cases op with
  | allow now => exact h.step_allow hstep
  | success t => exact (h.step_success hok hstep).1
  | failure t now => exact CountsProbes.step_failure hstep
  | abandon t =>
    obtain ⟨-, rfl⟩ := step?_abandon hstep
    exact h

/-- Calls other than a success never close a half-open breaker. -/
theorem closesOnProbes_of_not_success {op : TicketOp} (hop : ∀ t, op ≠ .success t)
    (hstep : s.step? op = some s') : ClosesOnProbes s s' := by
  intro hhalf hclosed
  cases op with
  | allow now =>
    have hkeep := (BreakerInner.allow_halfOpen hhalf config now).1
    obtain ⟨-, rfl⟩ | ⟨-, rfl⟩ := step?_allow hstep <;>
      simp [grant, CircuitBreaker.allow, CircuitBreaker.state, hkeep] at hclosed
  | success t => exact absurd rfl (hop t)
  | failure t now =>
    obtain ⟨-, rfl⟩ := step?_failure hstep
    have hcall := BreakerInner.recordFailure_halfOpen hhalf config now
    simp [CircuitBreaker.recordFailure, CircuitBreaker.state, hcall] at hclosed
  | abandon t =>
    obtain ⟨-, rfl⟩ := step?_abandon hstep
    rw [drop_breaker, hhalf] at hclosed
    cases hclosed

/-- **A failure opens a half-open breaker on a probe exactly when it is timely.** -/
theorem opensOnProbe_iff_timely (hhalf : s.breaker.state = stateHalfOpen)
    (hstep : s.step? (.failure t now) = some s') :
    OpensOnProbe s (.failure t now) s' ↔ s.Timely (.failure t now) := by
  obtain ⟨-, rfl⟩ := step?_failure hstep
  have hcall := BreakerInner.recordFailure_halfOpen hhalf config now
  have hopen : (s.breaker.recordFailure now).state = stateOpen := by
    simp [CircuitBreaker.recordFailure, CircuitBreaker.state, hcall]
  constructor
  · intro h _
    obtain ⟨_, heq⟩ := h hhalf hopen
    exact (TicketOp.failure.inj heq).1
  · intro h _ _
    exact ⟨now, by rw [h hhalf]⟩

/-- Calls other than a failure never open a half-open breaker. -/
theorem opensOnProbe_of_not_failure {op : TicketOp} (hop : ∀ t now, op ≠ .failure t now)
    (hstep : s.step? op = some s') : OpensOnProbe s op s' := by
  intro hhalf hopen
  cases op with
  | allow now =>
    have hkeep := (BreakerInner.allow_halfOpen hhalf config now).1
    obtain ⟨-, rfl⟩ | ⟨-, rfl⟩ := step?_allow hstep <;>
      simp [grant, CircuitBreaker.allow, CircuitBreaker.state, hkeep] at hopen
  | success t =>
    obtain ⟨-, rfl⟩ := step?_success hstep
    rcases Nat.lt_or_ge (s.breaker.inner.successCount + 1) config.halfOpenMaxCalls with hm | hm
    · have hcall := BreakerInner.recordSuccess_halfOpen_more hhalf hm
      have hkeep : s.breaker.inner.state = stateHalfOpen := hhalf
      simp [CircuitBreaker.recordSuccess, CircuitBreaker.state, hcall, hkeep] at hopen
    · have hcall := BreakerInner.recordSuccess_halfOpen_last hhalf hm
      simp [CircuitBreaker.recordSuccess, CircuitBreaker.state, hcall] at hopen
  | failure t now => exact absurd rfl (hop t now)
  | abandon t =>
    obtain ⟨-, rfl⟩ := step?_abandon hstep
    rw [drop_breaker, hhalf] at hopen
    cases hopen

end Steps

/-! ### Runs without late results -/

/-- Along runs whose late results keep out of half-open episodes, the breaker's success count is the
episode's own. -/
theorem countsProbes_invariant (config : CircuitBreakerConfig) :
    ((runs config).guard Timely).Invariant CountsProbes where
  init s hs := by
    rw [show s = new config from hs]
    intro hhalf
    cases hhalf
  step _ _ _ h hstep := h.step hstep.2 hstep.1

/-- **Only genuine probes move a half-open breaker**, in every run in which no result of an attempt
admitted outside the running half-open episode reaches the half-open breaker. -/
theorem genuine_of_timely {s s' : TicketedBreaker config} {op : TicketOp}
    (hs : ((runs config).guard Timely).Reachable s)
    (hstep : ((runs config).guard Timely).Step s op s') :
    ClosesOnProbes s s' ∧ OpensOnProbe s op s' := by
  have hcount := (countsProbes_invariant config).of_reachable hs
  obtain ⟨hstep, hok⟩ := hstep
  constructor
  · cases op with
    | success t => exact (hcount.step_success hok hstep).2
    | allow now => exact closesOnProbes_of_not_success (by simp) hstep
    | failure t now => exact closesOnProbes_of_not_success (by simp) hstep
    | abandon t => exact closesOnProbes_of_not_success (by simp) hstep
  · intro hhalf
    cases op with
    | failure t now => exact (opensOnProbe_iff_timely hhalf hstep).2 hok hhalf
    | allow now => exact opensOnProbe_of_not_failure (by simp) hstep hhalf
    | success t => exact opensOnProbe_of_not_failure (by simp) hstep hhalf
    | abandon t => exact opensOnProbe_of_not_failure (by simp) hstep hhalf

/-- Five failures open the default breaker, and after the recovery timeout three probes are
admitted, of which two succeed. -/
def probeRun : List TicketOp :=
  List.replicate 5 (.allow 0) ++ List.replicate 5 (.failure .ordinary 0) ++
    List.replicate 3 (.allow 30000) ++ List.replicate 2 (.success (.probe 1))

/-- The success of the third probe closes the breaker, and it is the third of its episode. -/
theorem genuine_of_timely_probeRun : ∃ s s' : TicketedBreaker .default,
    ((runs .default).guard Timely).Reachable s ∧
      ((runs .default).guard Timely).Step s (.success (.probe 1)) s' ∧
      s.breaker.state = stateHalfOpen ∧ s'.breaker.state = stateClosed ∧ 3 ≤ s'.probes := by
  obtain ⟨s, hs, hhalf, s', hstep, hok, hclosed⟩ : ∃ s : TicketedBreaker .default,
      ((runs .default).guard Timely).Reachable s ∧ s.breaker.state = stateHalfOpen ∧
      ∃ s', s.step? (.success (.probe 1)) = some s' ∧ s.Timely (.success (.probe 1)) ∧
        s'.breaker.state = stateClosed :=
    ⟨_, TransitionSystem.reachable_guard_of_foldlM rfl probeRun rfl, rfl, _, rfl,
      fun _ _ ↦ rfl, rfl⟩
  have hstep : ((runs .default).guard Timely).Step s (.success (.probe 1)) s' := ⟨hstep, hok⟩
  exact ⟨s, s', hs, hstep, hhalf, hclosed, (genuine_of_timely hs hstep).1 hhalf hclosed⟩

/-- Eight attempts admitted by the closed breaker, five of which fail at once and open it; after the
recovery timeout one probe is admitted. -/
def lateRun : List TicketOp :=
  List.replicate 8 (.allow 0) ++ List.replicate 5 (.failure .ordinary 0) ++ [.allow 30000] ++
    List.replicate 2 (.success .ordinary)

/-- The three remaining attempts, admitted while closed, succeed late: the default breaker closes
without a single success of a probe. -/
theorem late_successes_close : ∃ s s' : TicketedBreaker .default,
    (runs .default).Reachable s ∧ (runs .default).Step s (.success .ordinary) s' ∧
      ¬ ClosesOnProbes s s' :=
  ⟨_, _, TransitionSystem.reachable_of_foldlM rfl lateRun rfl, rfl,
    fun h ↦ absurd (h rfl rfl) (by decide)⟩

end TicketedBreaker

end Himadri
