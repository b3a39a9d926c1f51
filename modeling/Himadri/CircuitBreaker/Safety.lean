import Himadri.CircuitBreaker.Breaker
import Himadri.Transition.System
import Mathlib.Data.List.Basic
import Mathlib.Tactic.Common

/-!
# Safety of the circuit breaker over timed runs

A timed run interleaves `allow`, `record_success`, `record_failure` and `reset` in any order, at
times that never decrease. The run is kept beside the breaker as a **history**, newest entry first,
and what the breaker should know is *read off the history*:

* `lastFailure?` — the most recently recorded failure;
* `failuresSinceClear` — the failures recorded since the last success, close or reset that left the
  breaker closed;
* `episodeAdmissions` — the calls admitted since the breaker last entered the half-open state.

`Agrees` says that the breaker's own counters are these three numbers. It is the invariant of every
timed run (`agrees_of_reachable`), and the safety theorem is its consequence together with the
bounds a `CircuitBreaker` carries.
-/

namespace Himadri

open CircuitState

/-- The four calls a breaker receives. -/
inductive BreakerOp
  | allow
  | recordSuccess
  | recordFailure
  | reset
  deriving DecidableEq

/-- One call of the history: when it ran, whether it admitted a request (only `allow` can), and the
state it left the breaker in. -/
structure BreakerEntry where
  now : ℕ
  op : BreakerOp
  admitted : Bool
  post : CircuitState
  deriving DecidableEq

namespace BreakerEntry

/-- The call recorded a failure. -/
def isFailure (e : BreakerEntry) : Bool := e.op == .recordFailure

/-- A success or a reset that left the breaker closed: a success while closed, the success that
closes a half-open breaker, a reset. -/
def clears (e : BreakerEntry) : Bool :=
  e.op == .reset || (e.op == .recordSuccess && e.post == stateClosed)

end BreakerEntry

/-! ### What the history says -/

/-- The most recently recorded failure. -/
def lastFailure? (log : List BreakerEntry) : Option BreakerEntry :=
  log.find? (·.isFailure)

/-- Failures recorded since the last entry that cleared the count. -/
def failuresSinceClear (log : List BreakerEntry) : ℕ :=
  (log.takeWhile (!·.clears)).countP (·.isFailure)

/-- Calls admitted since the breaker entered the half-open state it is in. -/
def episodeAdmissions (log : List BreakerEntry) : ℕ :=
  (log.takeWhile (·.post == stateHalfOpen)).countP (·.admitted)

section HistoryLemmas

variable {e : BreakerEntry} {log : List BreakerEntry}

theorem lastFailure?_cons_of_isFailure (h : e.isFailure = true) :
    lastFailure? (e :: log) = some e := by
  simp [lastFailure?, h]

theorem lastFailure?_cons_of_not_isFailure (h : e.isFailure = false) :
    lastFailure? (e :: log) = lastFailure? log := by
  simp [lastFailure?, h]

theorem failuresSinceClear_cons_of_clears (h : e.clears = true) :
    failuresSinceClear (e :: log) = 0 := by
  simp [failuresSinceClear, h]

theorem failuresSinceClear_cons_of_isFailure (hc : e.clears = false) (hf : e.isFailure = true) :
    failuresSinceClear (e :: log) = failuresSinceClear log + 1 := by
  simp [failuresSinceClear, hc, hf]

theorem failuresSinceClear_cons_of_not_isFailure (hc : e.clears = false)
    (hf : e.isFailure = false) : failuresSinceClear (e :: log) = failuresSinceClear log := by
  simp [failuresSinceClear, hc, hf]

theorem episodeAdmissions_cons_of_admitted (hp : e.post = stateHalfOpen)
    (ha : e.admitted = true) : episodeAdmissions (e :: log) = episodeAdmissions log + 1 := by
  simp [episodeAdmissions, hp, ha]

theorem episodeAdmissions_cons_of_not_admitted (hp : e.post = stateHalfOpen)
    (ha : e.admitted = false) : episodeAdmissions (e :: log) = episodeAdmissions log := by
  simp [episodeAdmissions, hp, ha]

/-- Outside the half-open state no episode is running. -/
theorem episodeAdmissions_of_head (h : ∀ e ∈ log.head?, e.post ≠ stateHalfOpen) :
    episodeAdmissions log = 0 := by
  cases log with
  | nil => rfl
  | cons e log =>
    have hp : e.post ≠ stateHalfOpen := h e (by simp)
    simp [episodeAdmissions, hp]

end HistoryLemmas

/-! ### Timed runs -/

variable {config : CircuitBreakerConfig}

/-- Run one call; the second component is what `allow` answered, `false` for the others. -/
def CircuitBreaker.call (b : CircuitBreaker config) (now : ℕ) :
    BreakerOp → CircuitBreaker config × Bool
  | .allow => b.allow now
  | .recordSuccess => (b.recordSuccess, false)
  | .recordFailure => (b.recordFailure now, false)
  | .reset => (b.reset, false)

section CallLemmas

variable {b : CircuitBreaker config} {now : ℕ}

@[simp] theorem CircuitBreaker.call_allow_inner :
    (b.call now .allow).1.inner = (b.inner.allow config now).1 := rfl

@[simp] theorem CircuitBreaker.call_allow_snd :
    (b.call now .allow).2 = (b.inner.allow config now).2 := rfl

@[simp] theorem CircuitBreaker.call_recordSuccess :
    b.call now .recordSuccess = (b.recordSuccess, false) := rfl

@[simp] theorem CircuitBreaker.call_recordFailure :
    b.call now .recordFailure = (b.recordFailure now, false) := rfl

@[simp] theorem CircuitBreaker.call_reset : b.call now .reset = (b.reset, false) := rfl

@[simp] theorem CircuitBreaker.recordSuccess_inner :
    b.recordSuccess.inner = b.inner.recordSuccess config := rfl

@[simp] theorem CircuitBreaker.recordFailure_inner :
    (b.recordFailure now).inner = b.inner.recordFailure config now := rfl

@[simp] theorem CircuitBreaker.reset_inner : b.reset.inner = b.inner.reset := rfl

/-- Only `record_failure` writes the time of the last failure. -/
theorem CircuitBreaker.call_lastFailureTime {op : BreakerOp} (hop : op ≠ .recordFailure) :
    (b.call now op).1.inner.lastFailureTime = b.inner.lastFailureTime := by
  cases op with
  | allow => exact BreakerInner.allow_lastFailureTime
  | recordSuccess => exact BreakerInner.recordSuccess_lastFailureTime
  | recordFailure => exact absurd rfl hop
  | reset => rfl

/-- Failures recorded while open leave the breaker open. -/
theorem CircuitBreaker.foldl_recordFailure_of_open (b : CircuitBreaker config) (times : List ℕ)
    (hst : b.state = stateOpen) :
    (times.foldl (fun b now ↦ b.recordFailure now) b).state = stateOpen := by
  induction times generalizing b with
  | nil => exact hst
  | cons now times ih =>
    rw [List.foldl_cons]
    refine ih (b.recordFailure now) ?_
    have hcall := BreakerInner.recordFailure_open hst config now
    simpa [state, hcall] using hst

end CallLemmas

/-- A breaker and the history of its calls, newest first. -/
structure BreakerHistory (config : CircuitBreakerConfig) where
  breaker : CircuitBreaker config
  log : List BreakerEntry

namespace BreakerHistory

variable (r : BreakerHistory config)

/-- The time of the last call. -/
def clock : ℕ := r.log.head?.elim 0 (·.now)

/-- One more call. -/
def call (now : ℕ) (op : BreakerOp) : BreakerHistory config where
  breaker := (r.breaker.call now op).1
  log :=
    { now, op, admitted := (r.breaker.call now op).2, post := (r.breaker.call now op).1.state } ::
      r.log

/-- A timed call; a call earlier than the last one is no step. -/
def call? (l : ℕ × BreakerOp) : Option (BreakerHistory config) :=
  if r.clock ≤ l.1 then some (r.call l.1 l.2) else none

end BreakerHistory

/-- The timed runs of a breaker: any calls in any order, at non-decreasing times. -/
def timedRuns (config : CircuitBreakerConfig) :
    TransitionSystem (BreakerHistory config) (ℕ × BreakerOp) :=
  .ofPartial (· = ⟨.new config, []⟩) BreakerHistory.call?

/-! ### The invariant -/

/-- The breaker's counters are what its history says. -/
structure BreakerHistory.Agrees (r : BreakerHistory config) : Prop where
  /-- The newest entry left the breaker in the state it is in. -/
  post : ∀ e ∈ r.log.head?, e.post = r.breaker.state
  start : r.log = [] → r.breaker.state = stateClosed
  lastFailure : ∀ f ∈ lastFailure? r.log, r.breaker.inner.lastFailureTime = f.now
  failed : r.breaker.state ≠ stateClosed → (lastFailure? r.log).isSome
  closed : r.breaker.state = stateClosed → r.breaker.failureCount = failuresSinceClear r.log
  halfOpen : r.breaker.state = stateHalfOpen →
    r.breaker.inner.halfOpenAdmitted = episodeAdmissions r.log
  /-- No recorded failure is later than the clock. -/
  clock : ∀ f ∈ lastFailure? r.log, f.now ≤ r.clock

namespace BreakerHistory.Agrees

variable {r : BreakerHistory config} {now : ℕ}

theorem start_of_init : Agrees (⟨.new config, []⟩ : BreakerHistory config) where
  post := by simp
  start _ := rfl
  lastFailure := by simp [lastFailure?]
  failed h := absurd rfl h
  closed _ := rfl
  halfOpen h := by simp [CircuitBreaker.new, CircuitBreaker.state, BreakerInner.new] at h
  clock := by simp [lastFailure?]

/-- Outside the half-open state the history runs no episode. -/
theorem episodeAdmissions_eq_zero (h : r.Agrees) (hst : r.breaker.inner.state ≠ stateHalfOpen) :
    episodeAdmissions r.log = 0 :=
  episodeAdmissions_of_head fun e he ↦ by rw [h.post e he]; exact hst

/-- What is left to check of a call that records no failure: the two counters, and that it does not
leave the closed state. The time of the last failure and its place in the history do not move. -/
theorem call_of_not_failure {op : BreakerOp} (h : r.Agrees) (hclock : r.clock ≤ now)
    (hop : op ≠ .recordFailure)
    (hleave : r.breaker.inner.state = stateClosed →
      (r.breaker.call now op).1.inner.state = stateClosed)
    (hclosed : (r.breaker.call now op).1.inner.state = stateClosed →
      (r.breaker.call now op).1.inner.failureCount = failuresSinceClear (r.call now op).log)
    (hhalf : (r.breaker.call now op).1.inner.state = stateHalfOpen →
      (r.breaker.call now op).1.inner.halfOpenAdmitted = episodeAdmissions (r.call now op).log) :
    (r.call now op).Agrees := by
  have hlast : lastFailure? (r.call now op).log = lastFailure? r.log :=
    lastFailure?_cons_of_not_isFailure (by simpa [BreakerEntry.isFailure] using hop)
  refine ⟨by simp [BreakerHistory.call], by simp [BreakerHistory.call], ?_, ?_, hclosed, hhalf, ?_⟩
  · rw [hlast]
    intro f hf
    exact (CircuitBreaker.call_lastFailureTime hop).trans (h.lastFailure f hf)
  · rw [hlast]
    exact fun hne ↦ h.failed fun hst ↦ hne (hleave hst)
  · rw [hlast]
    intro f hf
    exact (h.clock f hf).trans hclock

theorem call_allow (h : r.Agrees) (hclock : r.clock ≤ now) : (r.call now .allow).Agrees := by
  have hcount : failuresSinceClear (r.call now .allow).log = failuresSinceClear r.log :=
    failuresSinceClear_cons_of_not_isFailure rfl rfl
  cases hst : r.breaker.inner.state with
  | stateClosed =>
    have hcall := BreakerInner.allow_closed hst config now
    refine h.call_of_not_failure hclock (by decide) ?_ ?_ ?_
    · simp [hcall, hst]
    · intro _
      rw [hcount, ← h.closed hst]
      simp [hcall, CircuitBreaker.failureCount]
    · simp [hcall, hst]
  | stateOpen =>
    have hzero := h.episodeAdmissions_eq_zero (by simp [hst])
    rcases Nat.lt_or_ge (now - r.breaker.inner.lastFailureTime) config.recoveryMillis with ht | ht
    · have hcall := BreakerInner.allow_open_early hst ht
      refine h.call_of_not_failure hclock (by decide) ?_ ?_ ?_ <;> simp [hcall, hst]
    · -- the call that leaves the open state is the first admission of the new episode
      have hcall := BreakerInner.allow_open_late hst ht
      refine h.call_of_not_failure hclock (by decide) ?_ ?_ ?_
      · simp [hst]
      · simp [hcall]
      · intro _
        rw [BreakerHistory.call, episodeAdmissions_cons_of_admitted, hzero] <;>
          simp [hcall, CircuitBreaker.state]
  | stateHalfOpen =>
    have hadmitted := h.halfOpen hst
    rcases Nat.lt_or_ge r.breaker.inner.halfOpenAdmitted config.halfOpenMaxCalls with hm | hm
    -- a spare call is admitted and counted; without one the breaker refuses
    · have hcall := BreakerInner.allow_halfOpen_spare hst hm now
      refine h.call_of_not_failure hclock (by decide) ?_ ?_ ?_
      · simp [hst]
      · simp [hcall, hst]
      · intro _
        rw [BreakerHistory.call, episodeAdmissions_cons_of_admitted, ← hadmitted] <;>
          simp [hcall, hst, CircuitBreaker.state]
    · have hcall := BreakerInner.allow_halfOpen_full hst hm now
      refine h.call_of_not_failure hclock (by decide) ?_ ?_ ?_
      · simp [hst]
      · simp [hcall, hst]
      · intro _
        rw [BreakerHistory.call, episodeAdmissions_cons_of_not_admitted, ← hadmitted] <;>
          simp [hcall, hst, CircuitBreaker.state]

theorem call_recordSuccess (h : r.Agrees) (hclock : r.clock ≤ now) :
    (r.call now .recordSuccess).Agrees := by
  cases hst : r.breaker.inner.state with
  | stateClosed =>
    have hcall := BreakerInner.recordSuccess_closed hst config
    refine h.call_of_not_failure hclock (by decide) ?_ ?_ ?_
    · simp [hcall, hst]
    · intro _
      rw [BreakerHistory.call, failuresSinceClear_cons_of_clears] <;>
        simp [hcall, hst, CircuitBreaker.state, BreakerEntry.clears]
    · simp [hcall, hst]
  | stateOpen =>
    have hcall := BreakerInner.recordSuccess_open hst config
    refine h.call_of_not_failure hclock (by decide) ?_ ?_ ?_ <;> simp [hcall, hst]
  | stateHalfOpen =>
    have hadmitted := h.halfOpen hst
    rcases Nat.lt_or_ge (r.breaker.inner.successCount + 1) config.halfOpenMaxCalls with hm | hm
    · have hcall := BreakerInner.recordSuccess_halfOpen_more hst hm
      refine h.call_of_not_failure hclock (by decide) ?_ ?_ ?_
      · simp [hst]
      · simp [hcall, hst]
      · intro _
        rw [BreakerHistory.call, episodeAdmissions_cons_of_not_admitted, ← hadmitted] <;>
          simp [hcall, hst, CircuitBreaker.state]
    · -- the last success closes the breaker and clears the failures
      have hcall := BreakerInner.recordSuccess_halfOpen_last hst hm
      refine h.call_of_not_failure hclock (by decide) ?_ ?_ ?_
      · simp [hst]
      · intro _
        rw [BreakerHistory.call, failuresSinceClear_cons_of_clears] <;>
          simp [hcall, CircuitBreaker.state, BreakerEntry.clears]
      · simp [hcall]

theorem call_reset (h : r.Agrees) (hclock : r.clock ≤ now) : (r.call now .reset).Agrees := by
  refine h.call_of_not_failure hclock (by decide) ?_ ?_ ?_
  · simp
  · intro _
    rw [BreakerHistory.call, failuresSinceClear_cons_of_clears] <;>
      simp [BreakerInner.reset, BreakerEntry.clears]
  · simp

theorem call_recordFailure (h : r.Agrees) : (r.call now .recordFailure).Agrees := by
  have hlast : lastFailure? (r.call now .recordFailure).log =
      (r.call now .recordFailure).log.head? :=
    lastFailure?_cons_of_isFailure rfl
  have hcount : failuresSinceClear (r.call now .recordFailure).log =
      failuresSinceClear r.log + 1 :=
    failuresSinceClear_cons_of_isFailure rfl rfl
  refine ⟨by simp [BreakerHistory.call], by simp [BreakerHistory.call], ?_, ?_, ?_, ?_, ?_⟩
  · rw [hlast]
    simp [BreakerHistory.call]
  · intro _
    rw [hlast]
    simp [BreakerHistory.call]
  · -- still closed: the breaker was closed and this failure stayed below the threshold
    intro hclosed
    cases hst : r.breaker.inner.state with
    | stateClosed =>
      rcases Nat.lt_or_ge (r.breaker.inner.failureCount + 1) config.failureThreshold with hm | hm
      · have hcall := BreakerInner.recordFailure_closed_more hst hm now
        rw [hcount, ← h.closed hst]
        simp [BreakerHistory.call, CircuitBreaker.failureCount, hcall]
      · have hcall := BreakerInner.recordFailure_closed_last hst hm now
        simp [BreakerHistory.call, CircuitBreaker.state, hcall] at hclosed
    | stateOpen =>
      have hcall := BreakerInner.recordFailure_open hst config now
      simp [BreakerHistory.call, CircuitBreaker.state, hcall, hst] at hclosed
    | stateHalfOpen =>
      have hcall := BreakerInner.recordFailure_halfOpen hst config now
      simp [BreakerHistory.call, CircuitBreaker.state, hcall] at hclosed
  · intro hhalf
    exact absurd hhalf (BreakerInner.recordFailure_state_ne_halfOpen)
  · rw [hlast]
    simp [BreakerHistory.call, BreakerHistory.clock]

end BreakerHistory.Agrees

theorem agrees_invariant (config : CircuitBreakerConfig) :
    (timedRuns config).Invariant BreakerHistory.Agrees where
  init r hr := by
    rw [show r = ⟨.new config, []⟩ from hr]
    exact .start_of_init
  step r l r' h hstep := by
    obtain ⟨hclock, heq⟩ := Option.ite_none_right_eq_some.1 hstep
    obtain rfl := Option.some.inj heq
    cases hop : l.2 with
    | allow => exact h.call_allow hclock
    | recordSuccess => exact h.call_recordSuccess hclock
    | recordFailure => exact h.call_recordFailure
    | reset => exact h.call_reset hclock

theorem agrees_of_reachable {r : BreakerHistory config} (h : (timedRuns config).Reachable r) :
    r.Agrees :=
  (agrees_invariant config).of_reachable h

/-! ### Safety -/

namespace CircuitBreaker

variable (b : CircuitBreaker config)

/-- `max 1 failure_threshold` failures in a row open a closed breaker, whatever it has counted
before and whenever they are recorded. -/
theorem foldl_recordFailure_open (times : List ℕ) (hst : b.state = stateClosed)
    (hlen : config.failureThreshold ≤ b.failureCount + times.length) (hpos : times ≠ []) :
    (times.foldl (fun b now ↦ b.recordFailure now) b).state = stateOpen := by
  induction times generalizing b with
  | nil => exact absurd rfl hpos
  | cons now times ih =>
    rw [List.foldl_cons]
    rcases Nat.lt_or_ge (b.inner.failureCount + 1) config.failureThreshold with hm | hm
    · have hcall := BreakerInner.recordFailure_closed_more hst hm now
      refine ih (b.recordFailure now) ?_ ?_ ?_
      · simpa [state, recordFailure, hcall] using hst
      · simp only [List.length_cons, failureCount] at hlen
        simp only [failureCount, recordFailure, hcall]
        omega
      · rintro rfl
        simp only [List.length_cons, List.length_nil, failureCount] at hlen
        omega
    · have hcall := BreakerInner.recordFailure_closed_last hst hm now
      exact (b.recordFailure now).foldl_recordFailure_of_open times (by simp [state, hcall])

end CircuitBreaker

/-- **Safety of the breaker.** Along every timed run, for every configuration whose recovery timeout
is a whole number `ms < 2 ^ 64` of milliseconds:

* an open breaker refuses exactly until `ms` milliseconds after the last recorded failure, and then
  admits and becomes half-open;
* one half-open episode admits at most `max 1 half_open_max_calls` calls;
* a closed breaker counts the failures since the last success, close or reset, stays below
  `max 1 failure_threshold`, and is opened by that many failures in a row;
* a failure opens a half-open breaker. -/
theorem circuitBreaker_safe {ms : ℕ} (hms : config.recoveryTimeout = .fromMillis ms)
    (hlt : ms < UInt64.size) {r : BreakerHistory config} (hr : (timedRuns config).Reachable r) :
    (r.breaker.state = stateOpen → ∃ f, lastFailure? r.log = some f ∧ ∀ now, r.clock ≤ now →
      (now < f.now + ms → r.breaker.allow now = (r.breaker, false)) ∧
      (f.now + ms ≤ now → (r.breaker.allow now).2 = true ∧
        (r.breaker.allow now).1.state = stateHalfOpen)) ∧
    episodeAdmissions r.log ≤ max 1 config.halfOpenMaxCalls ∧
    (r.breaker.state = stateClosed →
      r.breaker.failureCount = failuresSinceClear r.log ∧
      r.breaker.failureCount < max 1 config.failureThreshold ∧
      ∀ times : List ℕ, times.length = max 1 config.failureThreshold →
        (times.foldl (fun b now ↦ b.recordFailure now) r.breaker).state = stateOpen) ∧
    (r.breaker.state = stateHalfOpen → ∀ now,
      (r.breaker.recordFailure now).state = stateOpen) := by
  have hagrees := agrees_of_reachable hr
  have hrec := CircuitBreakerConfig.recoveryMillis_eq hms hlt
  refine ⟨?_, ?_, ?_, ?_⟩
  -- the time an open breaker keeps is that of the last failure of the log
  · intro hopen
    obtain ⟨f, hf⟩ := Option.isSome_iff_exists.1 (hagrees.failed (by simp [hopen]))
    have htime := hagrees.lastFailure f hf
    have hclock := hagrees.clock f hf
    refine ⟨f, hf, fun now hnow ↦ ⟨fun hearly ↦ ?_, fun hlate ↦ ?_⟩⟩
    · have ht : now - r.breaker.inner.lastFailureTime < config.recoveryMillis := by omega
      have hcall := BreakerInner.allow_open_early hopen ht
      exact Prod.ext (CircuitBreaker.ext (congrArg Prod.fst hcall :)) (congrArg Prod.snd hcall :)
    · have ht : config.recoveryMillis ≤ now - r.breaker.inner.lastFailureTime := by omega
      have hcall := BreakerInner.allow_open_late hopen ht
      exact ⟨congrArg Prod.snd hcall, by simp [CircuitBreaker.allow, CircuitBreaker.state, hcall]⟩
  · by_cases hhalf : r.breaker.state = stateHalfOpen
    · rw [← hagrees.halfOpen hhalf]
      exact r.breaker.wellFormed.admitted_le
    · rw [hagrees.episodeAdmissions_eq_zero hhalf]
      exact Nat.zero_le _
  · intro hclosed
    refine ⟨hagrees.closed hclosed, r.breaker.wellFormed.failure_lt hclosed, fun times hlen ↦ ?_⟩
    refine r.breaker.foldl_recordFailure_open times hclosed (by omega) ?_
    rintro rfl
    simp only [List.length_nil] at hlen
    omega
  · intro hhalf now
    exact congrArg BreakerInner.state (BreakerInner.recordFailure_halfOpen hhalf config now)

/-- Five failures at time 7 open the default breaker; it refuses at 30006 and admits at 30007. -/
theorem circuitBreaker_safe_default : ∃ r, (timedRuns .default).Reachable r ∧
    r.breaker.allow 30006 = (r.breaker, false) ∧ (r.breaker.allow 30007).2 = true := by
  obtain ⟨r, hr, hopen, hlast, hclock⟩ : ∃ r, (timedRuns .default).Reachable r ∧
      r.breaker.state = stateOpen ∧ (lastFailure? r.log).map (·.now) = some 7 ∧ r.clock = 7 :=
    ⟨_, TransitionSystem.reachable_of_foldlM rfl (List.replicate 5 (7, .recordFailure)) rfl,
      rfl, rfl, rfl⟩
  have hms : CircuitBreakerConfig.default.recoveryTimeout = .fromMillis 30000 := rfl
  obtain ⟨f, hf, htimes⟩ := (circuitBreaker_safe hms (by decide) hr).1 hopen
  have hnow : f.now = 7 := by simpa [hf] using hlast
  exact ⟨r, hr, (htimes 30006 (by omega)).1 (by omega), ((htimes 30007 (by omega)).2 (by omega)).1⟩

end Himadri
