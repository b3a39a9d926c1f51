import Himadri.Core.Duration
import Mathlib.Order.MinMax
import Mathlib.Tactic.SplitIfs

/-!
# The circuit breaker of one endpoint

`CircuitBreaker` of `himadri-circuitbreaker`: a small record behind one mutex, changed by `allow`,
`record_success`, `record_failure` and `reset`. Each method holds the mutex for its whole body, so
each is one atomic function here; the value `now_millis()` would return is an argument.

`BreakerInner` is the record as the source has it, with the four methods translated on it. The
counters are `u64` in the source and naturals here. `BreakerInner.WellFormed` bounds them by the
configuration, every method keeps it, and `WellFormed.counters_lt` concludes that no `+= 1` of the
source can overflow. `CircuitBreaker` bundles a record with that proof, so the modules that follow
never meet a breaker whose counters disagree with its state.
-/

namespace Himadri

/-- `CircuitBreakerConfig`, with the range of its two `u64` fields. -/
structure CircuitBreakerConfig where
  failureThreshold : ℕ
  recoveryTimeout : Duration
  halfOpenMaxCalls : ℕ
  failureThreshold_lt : failureThreshold < UInt64.size
  halfOpenMaxCalls_lt : halfOpenMaxCalls < UInt64.size

namespace CircuitBreakerConfig

/-- `CircuitBreakerConfig::default`. -/
def default : CircuitBreakerConfig where
  failureThreshold := 5
  recoveryTimeout := .fromSecs 30
  halfOpenMaxCalls := 3
  failureThreshold_lt := by decide
  halfOpenMaxCalls_lt := by decide

/-- `recovery_timeout.as_millis() as u64`: the cast keeps the low 64 bits. -/
def recoveryMillis (config : CircuitBreakerConfig) : ℕ :=
  config.recoveryTimeout.asMillis % UInt64.size

theorem recoveryMillis_eq {config : CircuitBreakerConfig} {ms : ℕ}
    (h : config.recoveryTimeout = .fromMillis ms) (hlt : ms < UInt64.size) :
    config.recoveryMillis = ms := by
  rw [recoveryMillis, h, Duration.asMillis_fromMillis, Nat.mod_eq_of_lt hlt]

end CircuitBreakerConfig

/-- The `STATE_*` constants. -/
inductive CircuitState
  | stateClosed
  | stateOpen
  | stateHalfOpen
  deriving DecidableEq

open CircuitState

/-- `BreakerInner`: what the breaker's mutex guards. -/
structure BreakerInner where
  state : CircuitState
  failureCount : ℕ
  /-- Probes that succeeded while half-open. -/
  successCount : ℕ
  /-- Probes admitted while half-open. -/
  halfOpenAdmitted : ℕ
  /-- When a failure was last recorded, in milliseconds of the breaker's clock. -/
  lastFailureTime : ℕ
  deriving DecidableEq

namespace BreakerInner

/-- The record `CircuitBreaker::new` starts with. -/
def new : BreakerInner where
  state := stateClosed
  failureCount := 0
  successCount := 0
  halfOpenAdmitted := 0
  lastFailureTime := 0

/-- `CircuitBreaker::allow`. Natural subtraction is the source's `saturating_sub`. -/
def allow (config : CircuitBreakerConfig) (now : ℕ) (inner : BreakerInner) :
    BreakerInner × Bool :=
  match inner.state with
  | stateClosed => (inner, true)
  | stateOpen =>
    if config.recoveryMillis ≤ now - inner.lastFailureTime then
      ({ inner with state := stateHalfOpen, successCount := 0, halfOpenAdmitted := 1 }, true)
    else (inner, false)
  | stateHalfOpen =>
    if inner.halfOpenAdmitted < config.halfOpenMaxCalls then
      ({ inner with halfOpenAdmitted := inner.halfOpenAdmitted + 1 }, true)
    else (inner, false)

/-- `CircuitBreaker::record_success`. -/
def recordSuccess (config : CircuitBreakerConfig) (inner : BreakerInner) : BreakerInner :=
  match inner.state with
  | stateClosed => { inner with failureCount := 0 }
  | stateHalfOpen =>
    if config.halfOpenMaxCalls ≤ inner.successCount + 1 then
      { inner with successCount := inner.successCount + 1, state := stateClosed, failureCount := 0 }
    else { inner with successCount := inner.successCount + 1 }
  | stateOpen => inner

/-- `CircuitBreaker::record_failure`. The time is recorded in every state. -/
def recordFailure (config : CircuitBreakerConfig) (now : ℕ) (inner : BreakerInner) :
    BreakerInner :=
  match inner.state with
  | stateClosed =>
    if config.failureThreshold ≤ inner.failureCount + 1 then
      { inner with
        lastFailureTime := now, failureCount := inner.failureCount + 1, state := stateOpen }
    else { inner with lastFailureTime := now, failureCount := inner.failureCount + 1 }
  | stateHalfOpen => { inner with lastFailureTime := now, state := stateOpen }
  | stateOpen => { inner with lastFailureTime := now }

/-- `CircuitBreaker::reset`. The time of the last failure is kept. -/
def reset (inner : BreakerInner) : BreakerInner :=
  { inner with state := stateClosed, failureCount := 0, successCount := 0, halfOpenAdmitted := 0 }

/-! ### What one method can do

One lemma for each method and each state it can start in; the proofs below and in the other
modules use these and never unfold a method. -/

variable {config : CircuitBreakerConfig} {inner : BreakerInner} {now : ℕ}

theorem allow_closed (h : inner.state = stateClosed) (config : CircuitBreakerConfig) (now : ℕ) :
    allow config now inner = (inner, true) := by
  simp [allow, h]

theorem allow_open_early (h : inner.state = stateOpen)
    (ht : now - inner.lastFailureTime < config.recoveryMillis) :
    allow config now inner = (inner, false) := by
  simp [allow, h, Nat.not_le.2 ht]

theorem allow_open_late (h : inner.state = stateOpen)
    (ht : config.recoveryMillis ≤ now - inner.lastFailureTime) :
    allow config now inner =
      ({ inner with state := stateHalfOpen, successCount := 0, halfOpenAdmitted := 1 }, true) := by
  simp [allow, h, ht]

theorem allow_halfOpen_spare (h : inner.state = stateHalfOpen)
    (ha : inner.halfOpenAdmitted < config.halfOpenMaxCalls) (now : ℕ) :
    allow config now inner =
      ({ inner with halfOpenAdmitted := inner.halfOpenAdmitted + 1 }, true) := by
  simp [allow, h, ha]

theorem allow_halfOpen_full (h : inner.state = stateHalfOpen)
    (ha : config.halfOpenMaxCalls ≤ inner.halfOpenAdmitted) (now : ℕ) :
    allow config now inner = (inner, false) := by
  simp [allow, h, Nat.not_lt.2 ha]

/-- Half-open, `allow` changes nothing but the number of admissions. -/
theorem allow_halfOpen (h : inner.state = stateHalfOpen) (config : CircuitBreakerConfig) (now : ℕ) :
    (allow config now inner).1.state = stateHalfOpen ∧
      (allow config now inner).1.successCount = inner.successCount := by
  rcases Nat.lt_or_ge inner.halfOpenAdmitted config.halfOpenMaxCalls with hm | hm
  · rw [allow_halfOpen_spare h hm]
    exact ⟨h, rfl⟩
  · rw [allow_halfOpen_full h hm]
    exact ⟨h, rfl⟩

theorem recordSuccess_closed (h : inner.state = stateClosed) (config : CircuitBreakerConfig) :
    recordSuccess config inner = { inner with failureCount := 0 } := by
  simp [recordSuccess, h]

theorem recordSuccess_open (h : inner.state = stateOpen) (config : CircuitBreakerConfig) :
    recordSuccess config inner = inner := by
  simp [recordSuccess, h]

theorem recordSuccess_halfOpen_last (h : inner.state = stateHalfOpen)
    (hs : config.halfOpenMaxCalls ≤ inner.successCount + 1) :
    recordSuccess config inner =
      { inner with
        successCount := inner.successCount + 1, state := stateClosed, failureCount := 0 } := by
  simp [recordSuccess, h, hs]

theorem recordSuccess_halfOpen_more (h : inner.state = stateHalfOpen)
    (hs : inner.successCount + 1 < config.halfOpenMaxCalls) :
    recordSuccess config inner = { inner with successCount := inner.successCount + 1 } := by
  simp [recordSuccess, h, Nat.not_le.2 hs]

theorem recordFailure_closed_last (h : inner.state = stateClosed)
    (hf : config.failureThreshold ≤ inner.failureCount + 1) (now : ℕ) :
    recordFailure config now inner =
      { inner with
        lastFailureTime := now, failureCount := inner.failureCount + 1, state := stateOpen } := by
  simp [recordFailure, h, hf]

theorem recordFailure_closed_more (h : inner.state = stateClosed)
    (hf : inner.failureCount + 1 < config.failureThreshold) (now : ℕ) :
    recordFailure config now inner =
      { inner with lastFailureTime := now, failureCount := inner.failureCount + 1 } := by
  simp [recordFailure, h, Nat.not_le.2 hf]

theorem recordFailure_halfOpen (h : inner.state = stateHalfOpen) (config : CircuitBreakerConfig)
    (now : ℕ) :
    recordFailure config now inner = { inner with lastFailureTime := now, state := stateOpen } := by
  simp [recordFailure, h]

theorem recordFailure_open (h : inner.state = stateOpen) (config : CircuitBreakerConfig) (now : ℕ) :
    recordFailure config now inner = { inner with lastFailureTime := now } := by
  simp [recordFailure, h]

theorem recordFailure_state_ne_halfOpen :
    (recordFailure config now inner).state ≠ stateHalfOpen := by
  unfold recordFailure
  split <;> (try split_ifs) <;> simp_all

@[simp] theorem recordFailure_lastFailureTime :
    (recordFailure config now inner).lastFailureTime = now := by
  unfold recordFailure
  split <;> (try split_ifs) <;> rfl

@[simp] theorem recordSuccess_lastFailureTime :
    (recordSuccess config inner).lastFailureTime = inner.lastFailureTime := by
  unfold recordSuccess
  split <;> (try split_ifs) <;> rfl

@[simp] theorem allow_lastFailureTime :
    (allow config now inner).1.lastFailureTime = inner.lastFailureTime := by
  unfold allow
  split <;> (try split_ifs) <;> rfl

@[simp] theorem reset_lastFailureTime : inner.reset.lastFailureTime = inner.lastFailureTime := rfl

@[simp] theorem reset_state : inner.reset.state = stateClosed := rfl

/-! ### The counters agree with the state -/

/-- The counters are bounded by the configuration, strictly in the state that still counts. -/
structure WellFormed (config : CircuitBreakerConfig) (inner : BreakerInner) : Prop where
  failure_le : inner.failureCount ≤ max 1 config.failureThreshold
  success_le : inner.successCount ≤ max 1 config.halfOpenMaxCalls
  admitted_le : inner.halfOpenAdmitted ≤ max 1 config.halfOpenMaxCalls
  failure_lt : inner.state = stateClosed → inner.failureCount < max 1 config.failureThreshold
  success_lt : inner.state = stateHalfOpen → inner.successCount < max 1 config.halfOpenMaxCalls
  admitted_pos : inner.state = stateHalfOpen → 1 ≤ inner.halfOpenAdmitted

namespace WellFormed

theorem new (config : CircuitBreakerConfig) : WellFormed config new where
  failure_le := Nat.zero_le _
  success_le := Nat.zero_le _
  admitted_le := Nat.zero_le _
  failure_lt _ := by simp [BreakerInner.new]
  success_lt h := by simp [BreakerInner.new] at h
  admitted_pos h := by simp [BreakerInner.new] at h

theorem allow (h : inner.WellFormed config) : (allow config now inner).1.WellFormed config := by
  obtain ⟨hf, hs, ha, hfl, hsl, hap⟩ := h
  cases hst : inner.state with
  | stateClosed =>
    rw [allow_closed hst]
    exact ⟨hf, hs, ha, hfl, hsl, hap⟩
  | stateOpen =>
    rcases Nat.lt_or_ge (now - inner.lastFailureTime) config.recoveryMillis with ht | ht
    · rw [allow_open_early hst ht]
      exact ⟨hf, hs, ha, hfl, hsl, hap⟩
    · rw [allow_open_late hst ht]
      refine ⟨hf, ?_, ?_, ?_, ?_, ?_⟩ <;> simp
  | stateHalfOpen =>
    rcases Nat.lt_or_ge inner.halfOpenAdmitted config.halfOpenMaxCalls with hm | hm
    · rw [allow_halfOpen_spare hst hm]
      refine ⟨hf, hs, ?_, hfl, hsl, ?_⟩
      · simp only
        omega
      · simp
    · rw [allow_halfOpen_full hst hm]
      exact ⟨hf, hs, ha, hfl, hsl, hap⟩

theorem recordSuccess (h : inner.WellFormed config) :
    (recordSuccess config inner).WellFormed config := by
  obtain ⟨hf, hs, ha, hfl, hsl, hap⟩ := h
  cases hst : inner.state with
  | stateClosed =>
    rw [recordSuccess_closed hst]
    refine ⟨Nat.zero_le _, hs, ha, ?_, hsl, hap⟩
    simp
  | stateOpen =>
    rw [recordSuccess_open hst]
    exact ⟨hf, hs, ha, hfl, hsl, hap⟩
  | stateHalfOpen =>
    have hlt := hsl hst
    rcases Nat.lt_or_ge (inner.successCount + 1) config.halfOpenMaxCalls with hm | hm
    · rw [recordSuccess_halfOpen_more hst hm]
      refine ⟨hf, ?_, ha, hfl, ?_, hap⟩ <;> simp only <;> omega
    · rw [recordSuccess_halfOpen_last hst hm]
      refine ⟨Nat.zero_le _, ?_, ha, ?_, ?_, ?_⟩
      · simp only
        omega
      all_goals simp

theorem recordFailure (h : inner.WellFormed config) :
    (recordFailure config now inner).WellFormed config := by
  obtain ⟨hf, hs, ha, hfl, hsl, hap⟩ := h
  cases hst : inner.state with
  | stateClosed =>
    have hlt := hfl hst
    rcases Nat.lt_or_ge (inner.failureCount + 1) config.failureThreshold with hm | hm
    · rw [recordFailure_closed_more hst hm]
      refine ⟨?_, hs, ha, ?_, ?_, ?_⟩ <;> simp [hst] <;> omega
    · rw [recordFailure_closed_last hst hm]
      refine ⟨?_, hs, ha, ?_, ?_, ?_⟩ <;> simp
      omega
  | stateOpen =>
    rw [recordFailure_open hst]
    exact ⟨hf, hs, ha, hfl, hsl, hap⟩
  | stateHalfOpen =>
    rw [recordFailure_halfOpen hst]
    refine ⟨hf, hs, ha, ?_, ?_, ?_⟩ <;> simp

theorem reset (inner : BreakerInner) : inner.reset.WellFormed config := by
  refine ⟨Nat.zero_le _, Nat.zero_le _, Nat.zero_le _, ?_, ?_, ?_⟩ <;> simp [BreakerInner.reset]

/-- No counter reaches `2 ^ 64`, so the source's `u64` increments never overflow. -/
theorem counters_lt (h : inner.WellFormed config) :
    inner.failureCount < UInt64.size ∧ inner.successCount < UInt64.size ∧
      inner.halfOpenAdmitted < UInt64.size := by
  have hf := config.failureThreshold_lt
  have hm := config.halfOpenMaxCalls_lt
  have hone : 1 < UInt64.size := by decide
  refine ⟨?_, ?_, ?_⟩
  · exact lt_of_le_of_lt h.failure_le (by omega)
  · exact lt_of_le_of_lt h.success_le (by omega)
  · exact lt_of_le_of_lt h.admitted_le (by omega)

end WellFormed

end BreakerInner

/-- `CircuitBreaker`: the guarded record together with the proof that its counters agree with its
state. -/
@[ext]
structure CircuitBreaker (config : CircuitBreakerConfig) where
  inner : BreakerInner
  wellFormed : inner.WellFormed config

namespace CircuitBreaker

variable {config : CircuitBreakerConfig} (b : CircuitBreaker config) (now : ℕ)

/-- `CircuitBreaker::new`. -/
def new (config : CircuitBreakerConfig) : CircuitBreaker config :=
  ⟨.new, .new config⟩

/-- `CircuitBreaker::allow`. -/
def allow : CircuitBreaker config × Bool :=
  (⟨(b.inner.allow config now).1, b.wellFormed.allow⟩, (b.inner.allow config now).2)

/-- `CircuitBreaker::record_success`. -/
def recordSuccess : CircuitBreaker config :=
  ⟨b.inner.recordSuccess config, b.wellFormed.recordSuccess⟩

/-- `CircuitBreaker::record_failure`. -/
def recordFailure : CircuitBreaker config :=
  ⟨b.inner.recordFailure config now, b.wellFormed.recordFailure⟩

/-- `CircuitBreaker::reset`. -/
def reset : CircuitBreaker config :=
  ⟨b.inner.reset, .reset b.inner⟩

/-- `CircuitBreaker::state`. -/
def state : CircuitState := b.inner.state

/-- `CircuitBreaker::failure_count`. -/
def failureCount : ℕ := b.inner.failureCount

end CircuitBreaker

end Himadri
