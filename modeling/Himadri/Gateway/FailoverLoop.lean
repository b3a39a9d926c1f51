import Himadri.Gateway.Route

/-!
# One call of the failover loop

`with_failover` as a loop over positions, threading `last_target`, `last_result` and `last_latency`
beside the breakers. `FailoverCall.visit` is one round with its seven exits and
`FailoverCall.withFailover` the call. The breakers are those of `FailoverState`: other calls and the
admin operations go on while this one runs, and may do anything to them between two of its accesses
(`Encounter`).

What the rounds do is said by position. `arrival i` is what the breakers are when position `i` is
reached, `PassedOver i` that the loop goes on behind it, and a call ends at the first position that
is not passed over, or at the last one (`exists_stop`). Everything the call does and returns is read
off that position.
-/

namespace Himadri

/-- What one position of the loop meets outside the call. -/
structure Encounter (config : CircuitBreakerConfig) (α : Type*) where
  /-- What becomes of the breakers before this position takes its own. -/
  before : FailoverState config α → FailoverState config α
  askedAt : ℕ
  /-- What becomes of the breakers while the operation runs. -/
  during : FailoverState config α → FailoverState config α
  result : Except ProviderError α
  latencyMs : ℕ
  reportedAt : ℕ

/-- A call of a breaker's `record_success` or `record_failure`. -/
structure BreakerCall where
  position : ℕ
  /-- The address of the breaker. -/
  breaker : ℕ
  report : BreakerReport

/-- The variables of the loop, and what the call has done so far. -/
structure FailoverLocals (config : CircuitBreakerConfig) (α β : Type*) where
  lastTarget : Target
  lastResult : Except AttemptError α
  lastLatencyMs : ℕ
  shared : FailoverState config α
  /-- The operations run, with their positions. -/
  calls : List (ℕ × β)
  reports : List BreakerCall
  /-- What the latency store was told. -/
  latencies : List (String × ℕ)

/-- A call of `with_failover`: its arguments and what it meets. -/
structure FailoverCall (config : CircuitBreakerConfig) (α β : Type*) where
  gateway : Gateway
  /-- `std::env::var(..).ok()`. -/
  vars : String → Option String
  ordered : List Target
  recordLatency : Bool
  op : Target → ProviderClient → (key : String) → β
  breakers : FailoverState config α
  encounter : ℕ → Encounter config α

variable {config : CircuitBreakerConfig} {α β : Type*}

/-- The breaker that a position takes out of the map, by its address, and the state with it. -/
def Encounter.taken (e : Encounter config α) (target : Target) (shared : FailoverState config α) :
    ℕ × FailoverState config α :=
  (e.before shared).breakerFor (routingKey target)

/-- The answer of `cb.allow()`. -/
def Encounter.admits (e : Encounter config α) (target : Target)
    (shared : FailoverState config α) : Bool :=
  (((e.taken target shared).2.cell (e.taken target shared).1).breaker.allow e.askedAt).2

/-- The state after `cb.allow()`. -/
def Encounter.asked (e : Encounter config α) (target : Target) (shared : FailoverState config α) :
    FailoverState config α :=
  (e.taken target shared).2.put (e.taken target shared).1
    (((e.taken target shared).2.cell (e.taken target shared).1).ask e.askedAt)

/-- The state after the breaker was told of the attempt's end. -/
def Encounter.settled (e : Encounter config α) (target : Target)
    (shared now : FailoverState config α) (report : Option BreakerReport) :
    FailoverState config α :=
  now.put (e.taken target shared).1
    ((now.cell (e.taken target shared).1).settle
      ((e.taken target shared).2.cell (e.taken target shared).1).ticket report e.reportedAt)

/-- The loop goes on behind the candidate: it is skipped, or its operation fails retryably. -/
def Gateway.GoesOn (g : Gateway) (vars : String → Option String) (target : Target)
    (trial : Trial α) : Prop :=
  trial.admitted = false ∨ g.providers.get (routingKey target) = none ∨
    (∃ e, g.getApiKey vars target = .error e) ∨
      ∃ e, trial.result = .error e ∧ e.retryable = true

theorem Gateway.tryTarget_snd {g : Gateway} {vars : String → Option String} {target : Target}
    {trial : Trial α} :
    (g.tryTarget vars target trial).2 = true ↔ g.GoesOn vars target trial := by
  rw [tryTarget, outcome, GoesOn]
  obtain ⟨admitted, result, latencyMs⟩ := trial
  dsimp only
  rcases admitted with - | -
  · simp
  · rcases g.providers.get (routingKey target) with - | client
    · simp [AttemptOutcome.fallsBack]
    · rcases g.getApiKey vars target with e | key
      · simp [AttemptOutcome.fallsBack]
      · rcases result with e | v <;> simp [AttemptOutcome.fallsBack]

namespace FailoverCall

section Loop

variable (c : FailoverCall config α β)

/-- Whether the latencies go to a latency store. -/
def latencyStore : Bool :=
  c.recordLatency &&
    match c.gateway.strategy with
    | .leastLatency _ => true
    | _ => false

/-- One round of the loop, and whether it ends in `continue`. -/
def visit (idx : ℕ) (candidate : Target) (isLast : Bool) (l : FailoverLocals config α β) :
    FailoverLocals config α β × Bool :=
  let e := c.encounter idx
  let asked := e.asked candidate l.shared
  if !e.admits candidate l.shared then
    ({ l with
      lastTarget := candidate
      shared := asked
      lastResult := .error (.circuitOpen candidate.provider) }, !isLast)
  else
    match c.gateway.providers.get (routingKey candidate) with
    | none =>
      ({ l with
        lastTarget := candidate
        shared := e.settled candidate l.shared asked none
        lastResult := .error (.providerNotFound candidate.provider) }, !isLast)
    | some provider =>
      match c.gateway.getApiKey c.vars candidate with
      | .error err =>
        ({ l with
          lastTarget := candidate
          shared := e.settled candidate l.shared asked none
          lastResult := .error (.apiKey err) }, !isLast)
      | .ok key =>
        let report := (AttemptOutcome.executed e.result).report
        let l' : FailoverLocals config α β :=
          { l with
            lastTarget := candidate
            lastLatencyMs := e.latencyMs
            shared := e.settled candidate l.shared (e.during asked) report
            calls := l.calls ++ [(idx, c.op candidate provider key)]
            reports :=
              l.reports ++ (report.map (⟨idx, (e.taken candidate l.shared).1, ·⟩)).toList
            latencies :=
              if c.latencyStore then l.latencies ++ [(candidate.provider, e.latencyMs)]
              else l.latencies }
        match e.result with
        | .ok v => ({ l' with lastResult := .ok v }, false)
        | .error err =>
          if err.retryable && !isLast then ({ l' with lastResult := .error (.provider err) }, true)
          else ({ l' with lastResult := .error (.provider err) }, false)

/-- The rounds from a position on, the candidates being those left. -/
def loop : (idx : ℕ) → List Target → FailoverLocals config α β → FailoverLocals config α β
  | _, [], l => l
  | idx, candidate :: rest, l =>
    if (c.visit idx candidate rest.isEmpty l).2 then
      loop (idx + 1) rest (c.visit idx candidate rest.isEmpty l).1
    else (c.visit idx candidate rest.isEmpty l).1

/-- `Gateway::with_failover`. It returns the first three variables; the others are what it does. -/
def withFailover : Option (FailoverLocals config α β) :=
  match c.ordered with
  | [] => none
  | first :: _ => some (c.loop 0 c.ordered ⟨first, .error .noTargets, 0, c.breakers, [], [], []⟩)

end Loop

/-! ### Positions -/

section Positions

variable (c : FailoverCall config α β)

/-- The breakers after a position. -/
def leave (e : Encounter config α) (target : Target) (shared : FailoverState config α) :
    FailoverState config α :=
  if e.admits target shared then
    match c.gateway.outcome c.vars target e.result with
    | .executed result =>
      e.settled target shared (e.during (e.asked target shared))
        (AttemptOutcome.executed result).report
    | _ => e.settled target shared (e.asked target shared) none
  else e.asked target shared

/-- The breakers when a position is reached. -/
def arrival : ℕ → FailoverState config α
  | 0 => c.breakers
  | i + 1 =>
    match c.ordered[i]? with
    | some target => c.leave (c.encounter i) target (arrival i)
    | none => arrival i

/-- The breaker of the target at position `i` admits the attempt. -/
def Admitted (i : ℕ) (target : Target) : Prop :=
  (c.encounter i).admits target (c.arrival i) = true

/-- The breaker denies, there is no client, or the key cannot be resolved. -/
def Skipped (i : ℕ) (target : Target) : Prop :=
  ¬c.Admitted i target ∨ c.gateway.providers.get (routingKey target) = none ∨
    ∃ e, c.gateway.getApiKey c.vars target = .error e

/-- The operation at position `i` ends in a retryable error. -/
def EndsRetryably (i : ℕ) : Prop := ∃ e, (c.encounter i).result = .error e ∧ e.retryable = true

/-- The loop goes on behind position `i`. -/
def PassedOver (i : ℕ) : Prop :=
  ∃ target, c.ordered[i]? = some target ∧ (c.Skipped i target ∨ c.EndsRetryably i)

/-- What is decided at position `i`. -/
def trialAt (i : ℕ) (target : Target) : Trial α where
  admitted := (c.encounter i).admits target (c.arrival i)
  result := (c.encounter i).result
  latencyMs := (c.encounter i).latencyMs

/-- The result of position `i`, whatever comes before and after it. -/
def ownResult (i : ℕ) (target : Target) : Except AttemptError α :=
  if (c.encounter i).admits target (c.arrival i) then
    match c.gateway.providers.get (routingKey target) with
    | none => .error (.providerNotFound target.provider)
    | some _ =>
      match c.gateway.getApiKey c.vars target with
      | .error e => .error (.apiKey e)
      | .ok _ =>
        match (c.encounter i).result with
        | .ok v => .ok v
        | .error e => .error (.provider e)
  else .error (.circuitOpen target.provider)

/-- The operation of position `i`. -/
def callAt (i : ℕ) : Option (ℕ × β) :=
  c.ordered[i]?.bind fun target ↦
    (c.gateway.operation c.vars c.op target (c.trialAt i target)).map (i, ·)

/-- What the breaker of position `i` is told. -/
def reportAt (i : ℕ) : Option BreakerCall :=
  c.ordered[i]?.bind fun target ↦
    if (c.gateway.operation c.vars c.op target (c.trialAt i target)).isSome then
      (AttemptOutcome.executed (c.encounter i).result).report.map
        (⟨i, ((c.encounter i).taken target (c.arrival i)).1, ·⟩)
    else none

/-- What the latency store is told at position `i`. -/
def latencyAt (i : ℕ) : List (String × ℕ) :=
  match c.ordered[i]? with
  | some target =>
    if c.latencyStore && (c.gateway.operation c.vars c.op target (c.trialAt i target)).isSome then
      [(target.provider, (c.encounter i).latencyMs)]
    else []
  | none => []

/-- The call ends at position `m`: the loop goes on behind every earlier position, and this is the
last one or the loop does not go on behind it. -/
structure StopsAt (m : ℕ) (target : Target) : Prop where
  target_eq : c.ordered[m]? = some target
  passed : ∀ k < m, c.PassedOver k
  stops : m + 1 = c.ordered.length ∨ ¬c.PassedOver m

/-- The loop has come to position `idx`. -/
structure Reached (idx : ℕ) (l : FailoverLocals config α β) : Prop where
  shared : l.shared = c.arrival idx
  calls : l.calls = (List.range idx).filterMap c.callAt
  reports : l.reports = (List.range idx).filterMap c.reportAt
  latencies : l.latencies = (List.range idx).flatMap c.latencyAt

/-- The loop has ended at position `m`. -/
structure EndedAt (m : ℕ) (target : Target) (l : FailoverLocals config α β) : Prop
    extends c.Reached (m + 1) l where
  lastTarget : l.lastTarget = target
  lastResult : l.lastResult = c.ownResult m target

end Positions

section Rounds

variable {c : FailoverCall config α β} {idx m : ℕ} {candidate target : Target}
  {l : FailoverLocals config α β}

/-- The ways through a round. -/
theorem round_cases (c : FailoverCall config α β) (i : ℕ) (target : Target) :
    (c.encounter i).admits target (c.arrival i) = false ∨
      (c.encounter i).admits target (c.arrival i) = true ∧
        (c.gateway.providers.get (routingKey target) = none ∨
          ∃ client, c.gateway.providers.get (routingKey target) = some client ∧
            ((∃ e, c.gateway.getApiKey c.vars target = .error e) ∨
              ∃ key, c.gateway.getApiKey c.vars target = .ok key ∧
                ((∃ e, (c.encounter i).result = .error e) ∨
                  ∃ v, (c.encounter i).result = .ok v))) := by
  rcases (c.encounter i).admits target (c.arrival i) with - | -
  · exact .inl rfl
  · rcases c.gateway.providers.get (routingKey target) with - | client
    · exact .inr ⟨rfl, .inl rfl⟩
    · rcases c.gateway.getApiKey c.vars target with e | key
      · exact .inr ⟨rfl, .inr ⟨client, rfl, .inl ⟨e, rfl⟩⟩⟩
      · rcases (c.encounter i).result with e | v
        · exact .inr ⟨rfl, .inr ⟨client, rfl, .inr ⟨key, rfl, .inl ⟨e, rfl⟩⟩⟩⟩
        · exact .inr ⟨rfl, .inr ⟨client, rfl, .inr ⟨key, rfl, .inr ⟨v, rfl⟩⟩⟩⟩

theorem operation_eq_some {b : β} {i : ℕ} :
    c.gateway.operation c.vars c.op target (c.trialAt i target) = some b ↔
      c.Admitted i target ∧ ∃ client key,
        c.gateway.providers.get (routingKey target) = some client ∧
          c.gateway.getApiKey c.vars target = .ok key ∧ b = c.op target client key := by
  simp only [Gateway.operation, Admitted, trialAt]
  obtain ha | ⟨ha, hp | ⟨client, hp, ⟨e, hk⟩ | ⟨key, hk, -⟩⟩⟩ := c.round_cases i target
  · simp [ha]
  · simp [hp]
  · simp [hp, hk]
  · simp [ha, hp, hk, eq_comm]

theorem tryTarget_snd {i : ℕ} :
    (c.gateway.tryTarget c.vars target (c.trialAt i target)).2 = true ↔
      c.Skipped i target ∨ c.EndsRetryably i := by
  rw [Gateway.tryTarget_snd, Gateway.GoesOn, Skipped, Admitted, Bool.not_eq_true, or_assoc,
    or_assoc]
  rfl

theorem passedOver_iff (htarget : c.ordered[idx]? = some target) :
    c.PassedOver idx ↔ (c.gateway.tryTarget c.vars target (c.trialAt idx target)).2 = true := by
  rw [tryTarget_snd, PassedOver, htarget]
  simp

/-- One round, whatever its exit. -/
theorem visit_eq (hat : c.ordered[idx]? = some candidate) (hl : l.shared = c.arrival idx)
    (isLast : Bool) :
    c.visit idx candidate isLast l =
      ({ lastTarget := candidate
         lastResult := c.ownResult idx candidate
         lastLatencyMs :=
           if (c.gateway.operation c.vars c.op candidate (c.trialAt idx candidate)).isSome then
             (c.encounter idx).latencyMs
           else l.lastLatencyMs
         shared := c.arrival (idx + 1)
         calls := l.calls ++ (c.callAt idx).toList
         reports := l.reports ++ (c.reportAt idx).toList
         latencies := l.latencies ++ c.latencyAt idx },
        (c.gateway.tryTarget c.vars candidate (c.trialAt idx candidate)).2 && !isLast) := by
  simp only [visit, hl, ownResult, arrival, callAt, reportAt, latencyAt, hat, leave,
    Gateway.tryTarget, Gateway.outcome, Gateway.operation, trialAt]
  obtain ha | ⟨ha, hp | ⟨client, hp, ⟨e, hk⟩ | ⟨key, hk, ⟨e, hr⟩ | ⟨v, hr⟩⟩⟩⟩ :=
    c.round_cases idx candidate
  · simp [ha]
  · simp [ha, hp, AttemptOutcome.result, AttemptOutcome.fallsBack]
  · simp [ha, hp, hk, AttemptOutcome.result, AttemptOutcome.fallsBack]
  · rcases hretry : e.retryable with - | - <;> cases isLast <;>
      cases c.latencyStore <;>
      simp [ha, hp, hk, hr, hretry, AttemptOutcome.result, AttemptOutcome.fallsBack]
  · cases c.latencyStore <;>
      simp [ha, hp, hk, hr, AttemptOutcome.result, AttemptOutcome.fallsBack]

theorem reached_start (first : Target) :
    c.Reached 0 ⟨first, .error .noTargets, 0, c.breakers, [], [], []⟩ :=
  ⟨rfl, rfl, rfl, rfl⟩

/-- A round at the position reached. -/
theorem Reached.visit (h : c.Reached idx l) (hat : c.ordered[idx]? = some candidate)
    (isLast : Bool) : c.EndedAt idx candidate (c.visit idx candidate isLast l).1 := by
  rw [visit_eq hat h.shared]
  refine ⟨⟨rfl, ?_, ?_, ?_⟩, rfl, rfl⟩
  · rw [h.calls, List.range_succ, List.filterMap_append]
    rcases hcall : c.callAt idx with - | call <;> simp [hcall]
  · rw [h.reports, List.range_succ, List.filterMap_append]
    rcases hreport : c.reportAt idx with - | report <;> simp [hreport]
  · rw [h.latencies, List.range_succ, List.flatMap_append, List.flatMap_singleton]

theorem getElem?_of_drop {rest : List Target} (hdrop : c.ordered.drop idx = candidate :: rest) :
    c.ordered[idx]? = some candidate := by
  rw [← List.head?_drop, hdrop]
  rfl

/-- The loop ends at the first position that is not passed over, or at the last. -/
theorem Reached.loop (rest : List Target) (h : c.Reached idx l)
    (hpassed : ∀ k < idx, c.PassedOver k) (hdrop : c.ordered.drop idx = candidate :: rest) :
    ∃ m target, c.StopsAt m target ∧ c.EndedAt m target (c.loop idx (candidate :: rest) l) := by
  induction rest generalizing idx candidate l with
  | nil =>
    have hat := getElem?_of_drop hdrop
    have hlength : idx + 1 = c.ordered.length := by
      have := congrArg List.length hdrop
      rw [List.length_drop, List.length_singleton] at this
      omega
    have hloop : c.loop idx [candidate] l = (c.visit idx candidate true l).1 := by
      simp [FailoverCall.loop]
    rw [hloop]
    exact ⟨idx, candidate, ⟨hat, hpassed, .inl hlength⟩, h.visit hat true⟩
  | cons next rest ih =>
    have hat := getElem?_of_drop hdrop
    have hon : (c.visit idx candidate false l).2 = true ↔ c.PassedOver idx := by
      rw [passedOver_iff hat, visit_eq hat h.shared, Bool.not_false, Bool.and_true]
    rw [FailoverCall.loop, List.isEmpty_cons]
    by_cases hpass : c.PassedOver idx
    · rw [if_pos (hon.2 hpass)]
      refine ih (h.visit hat false).toReached (fun k hk ↦ ?_) ?_
      · rcases Nat.lt_succ_iff_lt_or_eq.1 hk with hlt | rfl
        · exact hpassed k hlt
        · exact hpass
      · rw [← List.tail_drop, hdrop, List.tail_cons]
    · rw [if_neg (mt hon.1 hpass)]
      exact ⟨idx, candidate, ⟨hat, hpassed, .inr hpass⟩, h.visit hat false⟩

/-- A call with a candidate returns. -/
theorem exists_stop (c : FailoverCall config α β) (hne : c.ordered ≠ []) :
    ∃ run m target, c.withFailover = some run ∧ c.StopsAt m target ∧ c.EndedAt m target run := by
  obtain ⟨first, rest, hordered⟩ := List.exists_cons_of_ne_nil hne
  obtain ⟨m, target, hstop, hend⟩ :=
    (reached_start (c := c) first).loop rest (fun k hk ↦ absurd hk (Nat.not_lt_zero k)) hordered
  refine ⟨_, m, target, ?_, hstop, hend⟩
  rw [withFailover, hordered]

/-- No position is reached behind the one the call ends at. -/
theorem StopsAt.le (h : c.StopsAt m target) {i : ℕ} (hi : i < c.ordered.length)
    (hpassed : ∀ k < i, c.PassedOver k) : i ≤ m := by
  by_contra hlt
  rcases h.stops with hlast | hstop
  · omega
  · exact hstop (hpassed m (by omega))

/-- What is found by position up to the end of the call. -/
theorem StopsAt.mem_filterMap {γ : Type*} (h : c.StopsAt m target) {f : ℕ → Option γ} {b : γ}
    (hf : ∀ i, c.ordered.length ≤ i → f i = none) :
    b ∈ (List.range (m + 1)).filterMap f ↔ ∃ i, (∀ k < i, c.PassedOver k) ∧ f i = some b := by
  rw [List.mem_filterMap]
  constructor
  · rintro ⟨i, hi, hfi⟩
    exact ⟨i, fun k hk ↦ h.passed k (by have := List.mem_range.1 hi; omega), hfi⟩
  · rintro ⟨i, hpassed, hfi⟩
    have hi : i < c.ordered.length := by
      by_contra hge
      rw [hf i (Nat.le_of_not_lt hge)] at hfi
      cases hfi
    exact ⟨i, List.mem_range.2 (Nat.lt_succ_iff.2 (h.le hi hpassed)), hfi⟩

theorem pairwise_position {γ : Type*} {f : ℕ → Option γ} {position : γ → ℕ}
    (hf : ∀ i b, f i = some b → position b = i) (n : ℕ) :
    (((List.range n).filterMap f).map position).Pairwise (· < ·) := by
  rw [List.pairwise_map, List.pairwise_filterMap]
  refine List.pairwise_lt_range.imp fun {i k} hlt b hb b' hb' ↦ ?_
  rwa [hf i b hb, hf k b' hb']

theorem callAt_eq_some {i k : ℕ} {b : β} :
    c.callAt i = some (k, b) ↔ i = k ∧ ∃ target client key, c.ordered[i]? = some target ∧
      c.Admitted i target ∧ c.gateway.providers.get (routingKey target) = some client ∧
        c.gateway.getApiKey c.vars target = .ok key ∧ b = c.op target client key := by
  simp only [callAt, Option.bind_eq_some_iff, Option.map_eq_some_iff, operation_eq_some,
    Prod.mk.injEq]
  constructor
  · rintro ⟨target, htarget, call, ⟨hadm, client, key, hp, hk, rfl⟩, rfl, rfl⟩
    exact ⟨rfl, target, client, key, htarget, hadm, hp, hk, rfl⟩
  · rintro ⟨rfl, target, client, key, htarget, hadm, hp, hk, rfl⟩
    exact ⟨target, htarget, _, ⟨hadm, client, key, hp, hk, rfl⟩, rfl, rfl⟩

/-- What the breaker is told of an executed attempt. -/
theorem report_executed {result : Except ProviderError α} {report : BreakerReport} :
    (AttemptOutcome.executed result).report = some report ↔
      report = .success ∧ (∃ v, result = .ok v) ∨
        report = .failure ∧
          ∃ e, result = .error e ∧ e.retryable = true ∧ e.isRateLimited = false := by
  rcases result with e | v
  · rcases hlimited : e.isRateLimited with - | - <;> rcases hretry : e.retryable with - | - <;>
      cases report <;> simp [AttemptOutcome.report, hlimited, hretry]
  · cases report <;> simp [AttemptOutcome.report]

theorem reportAt_eq_some {i : ℕ} {told : BreakerCall} :
    c.reportAt i = some told ↔ i = told.position ∧ ∃ target call,
      c.ordered[i]? = some target ∧ c.callAt i = some (i, call) ∧
        told.breaker = ((c.encounter i).taken target (c.arrival i)).1 ∧
        (AttemptOutcome.executed (c.encounter i).result).report = some told.report := by
  rcases htarget : c.ordered[i]? with - | target
  · simp [reportAt, htarget]
  · rcases hcall : c.gateway.operation c.vars c.op target (c.trialAt i target) with - | call
    · simp [reportAt, callAt, htarget, hcall]
    · simp only [reportAt, callAt, htarget, hcall, Option.bind_some, Option.isSome_some, if_true,
        Option.map_eq_some_iff, Option.map_some]
      constructor
      · rintro ⟨report, hreport, rfl⟩
        exact ⟨rfl, target, call, rfl, rfl, rfl, hreport⟩
      · rintro ⟨hi, target', -, htarget', -, hbreaker, hreport⟩
        obtain rfl := Option.some.inj htarget'
        refine ⟨told.report, hreport, ?_⟩
        rw [← hbreaker, hi]

/-! ### The call -/

/-- The trials of the request path that this call amounts to. -/
def trials (c : FailoverCall config α β) (i : ℕ) : Trial α :=
  match c.ordered[i]? with
  | some target => c.trialAt i target
  | none => ⟨false, (c.encounter i).result, (c.encounter i).latencyMs⟩

theorem ownResult_eq (c : FailoverCall config α β) (i : ℕ) (target : Target) :
    c.ownResult i target = (c.gateway.tryTarget c.vars target (c.trialAt i target)).1 := by
  simp only [ownResult, Gateway.tryTarget, Gateway.outcome, trialAt]
  obtain ha | ⟨ha, hp | ⟨client, hp, ⟨e, hk⟩ | ⟨key, hk, ⟨e, hr⟩ | ⟨v, hr⟩⟩⟩⟩ :=
    c.round_cases i target
  · simp [ha]
  · simp [ha, hp, AttemptOutcome.result]
  · simp [ha, hp, hk, AttemptOutcome.result]
  · simp [ha, hp, hk, hr, AttemptOutcome.result]
  · simp [ha, hp, hk, hr, AttemptOutcome.result]

theorem trials_of_getElem? (hat : c.ordered[idx]? = some candidate) :
    c.trials idx = c.trialAt idx candidate := by
  rw [trials, hat]

theorem map_snd_callAt (hat : c.ordered[idx]? = some candidate) :
    (c.callAt idx).toList.map Prod.snd =
      (c.gateway.operation c.vars c.op candidate (c.trialAt idx candidate)).toList := by
  rw [callAt, hat, Option.bind_some]
  cases c.gateway.operation c.vars c.op candidate (c.trialAt idx candidate) <;> rfl

/-- What the loop adds from a position on is what the loop of the request path returns. -/
theorem Reached.failover (rest : List Target) (h : c.Reached idx l)
    (hdrop : c.ordered.drop idx = candidate :: rest) :
    ∃ calls, c.gateway.failover c.vars c.op (candidate :: rest) (fun i ↦ c.trials (idx + i))
        l.lastLatencyMs = some ⟨(c.loop idx (candidate :: rest) l).lastTarget,
          (c.loop idx (candidate :: rest) l).lastResult,
          (c.loop idx (candidate :: rest) l).lastLatencyMs, calls⟩ ∧
      (c.loop idx (candidate :: rest) l).calls.map Prod.snd = l.calls.map Prod.snd ++ calls := by
  induction rest generalizing idx candidate l with
  | nil =>
    have hat := getElem?_of_drop hdrop
    refine ⟨(c.gateway.operation c.vars c.op candidate (c.trialAt idx candidate)).toList, ?_, ?_⟩
    · rw [Gateway.failover]
      simp only [FailoverCall.loop, visit_eq hat h.shared, Nat.add_zero, trials_of_getElem? hat,
        Gateway.failover, ite_self, ownResult_eq]
      simp only [trialAt]
    · simp [FailoverCall.loop, visit_eq hat h.shared, map_snd_callAt hat]
  | cons next rest ih =>
    have hat := getElem?_of_drop hdrop
    have hvisit := visit_eq (c := c) hat h.shared false
    have hlatency : (c.visit idx candidate false l).1.lastLatencyMs =
        if (c.gateway.operation c.vars c.op candidate (c.trialAt idx candidate)).isSome then
          (c.trialAt idx candidate).latencyMs else l.lastLatencyMs := by rw [hvisit]; rfl
    have hcalls : (c.visit idx candidate false l).1.calls.map Prod.snd = l.calls.map Prod.snd ++
        (c.gateway.operation c.vars c.op candidate (c.trialAt idx candidate)).toList := by
      rw [hvisit, List.map_append, map_snd_callAt hat]
    have hon : (c.visit idx candidate false l).2 =
        (c.gateway.tryTarget c.vars candidate (c.trialAt idx candidate)).2 := by
      rw [hvisit, Bool.not_false, Bool.and_true]
    have hended := h.visit hat false
    rw [FailoverCall.loop, Gateway.failover, List.isEmpty_cons, hon]
    simp only [Nat.add_zero, trials_of_getElem? hat, ← hlatency]
    rcases (c.gateway.tryTarget c.vars candidate (c.trialAt idx candidate)).2 with - | -
    · refine ⟨_, ?_, hcalls⟩
      simp only [Bool.false_eq_true, if_false, hended.lastTarget, hended.lastResult, ownResult_eq]
    · have hnext : c.ordered.drop (idx + 1) = next :: rest := by
        rw [← List.tail_drop, hdrop, List.tail_cons]
      have hshift : (fun i ↦ c.trials (idx + 1 + i)) = fun i ↦ c.trials (idx + (i + 1)) :=
        funext fun i ↦ congrArg c.trials (by omega)
      obtain ⟨calls, hfailover, hlater⟩ := ih hended.toReached hnext
      rw [hshift] at hfailover
      refine ⟨(c.gateway.operation c.vars c.op candidate (c.trialAt idx candidate)).toList ++ calls,
        ?_, ?_⟩
      · simp only [if_true, hfailover]
      · rw [if_pos rfl, hlater, hcalls, List.append_assoc]

/-- The call returns what the loop of the request path does, and runs the same operations. -/
theorem withFailover_eq (c : FailoverCall config α β) :
    c.withFailover.map (fun run ↦ (⟨run.lastTarget, run.lastResult, run.lastLatencyMs,
        run.calls.map Prod.snd⟩ : FailoverEnd α β)) =
      c.gateway.failover c.vars c.op c.ordered c.trials 0 := by
  rcases hordered : c.ordered with - | ⟨first, rest⟩
  · rw [withFailover, hordered]
    rfl
  · obtain ⟨calls, hfailover, hcalls⟩ := (reached_start (c := c) first).failover rest hordered
    simp only [Nat.zero_add] at hfailover
    rw [withFailover, hordered, hfailover, Option.map_some, hcalls]
    rfl

end Rounds

end FailoverCall

end Himadri
