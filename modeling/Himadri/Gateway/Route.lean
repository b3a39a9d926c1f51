import Himadri.Gateway.Audit
import Himadri.Gateway.Failover
import Himadri.Gateway.Selection
import Himadri.Plugins.Cache
import Himadri.Plugins.Pipeline
import Himadri.Transition.Sweep

/-!
# The request path

`prepare_request` and `route`. A call of `route` is what it returns beside what it does on the way:
the events it records, the operations it runs on providers, and what it reads from and writes to the
response cache (`RouteRun`). What is decided outside the gateway's shared state is given
(`RouteEnv`).
-/

namespace Himadri

/-! ### Trying the targets -/

/-- What is decided at a candidate of `with_failover` outside the gateway: whether its breaker
admits the attempt, and how the operation ends there, after how many milliseconds. -/
structure Trial (α : Type*) where
  admitted : Bool
  result : Except ProviderError α
  latencyMs : ℕ

/-- How `with_failover` ends: the target used last, its result, the latency of the final attempt,
and the operations that were run. -/
structure FailoverEnd (α β : Type*) where
  target : Target
  result : Except AttemptError α
  latencyMs : ℕ
  calls : List β

section Failover

variable {α β : Type*} (g : Gateway) (vars : String → Option String)
  (op : Target → ProviderClient → (key : String) → β)

/-- The operation run on a candidate, from the admission on. -/
def Gateway.operation (target : Target) (trial : Trial α) : Option β :=
  if trial.admitted then
    match g.providers.get (routingKey target), g.getApiKey vars target with
    | some client, .ok key => some (op target client key)
    | _, _ => none
  else none

/-- How an admitted attempt ends. -/
def Gateway.outcome (target : Target) (result : Except ProviderError α) : AttemptOutcome α :=
  match g.providers.get (routingKey target) with
  | none => .providerNotFound
  | some _ =>
    match g.getApiKey vars target with
    | .error e => .apiKey e
    | .ok _ => .executed result

/-- `last_result` after a candidate, and whether the loop goes on behind it. -/
def Gateway.tryTarget (target : Target) (trial : Trial α) : Except AttemptError α × Bool :=
  if trial.admitted then
    ((g.outcome vars target trial.result).result target,
      (g.outcome vars target trial.result).fallsBack)
  else (.error (.circuitOpen target.provider), true)

/-- The loop of `Gateway::with_failover`; `trial` is by position and `latencyMs` is that of the last
operation before. -/
def Gateway.failover : (ordered : List Target) → (trial : ℕ → Trial α) → (latencyMs : ℕ) →
    Option (FailoverEnd α β)
  | [], _, _ => none
  | t :: rest, trial, latencyMs =>
    let call := g.operation vars op t (trial 0)
    let latencyMs := if call.isSome then (trial 0).latencyMs else latencyMs
    let here : FailoverEnd α β := ⟨t, (g.tryTarget vars t (trial 0)).1, latencyMs, call.toList⟩
    if (g.tryTarget vars t (trial 0)).2 then
      match Gateway.failover rest (fun i ↦ trial (i + 1)) latencyMs with
      | some later => some { later with calls := call.toList ++ later.calls }
      | none => some here
    else some here

end Failover

/-- The flattening of `route`: failures of the gateway's own become a 503 of the provider. -/
def AttemptError.flatten : AttemptError → ProviderError
  | .provider e => e
  | .circuitOpen p => .api 503 ("Circuit breaker open for provider " ++ p)
  | .providerNotFound p => .api 503 ("Provider not found: " ++ p)
  | .apiKey e => .api 503 e.display
  | .noTargets => .internal "No targets attempted"

/-- `map_plugin_error`. -/
def mapPluginError (e : PluginError) : GatewayError :=
  match e with
  | .rejected _ reason kind =>
    match kind with
    | .rateLimited retryAfterSecs => .rateLimited retryAfterSecs
    | .budgetExceeded => .quotaExceeded reason
    | .forbidden => .forbidden reason
    | .badRequest => .badRequest e.display
  | .internal _ => .internal e.display

/-! ### The call -/

/-- What any request meets outside the gateway's shared state. -/
structure RequestEnv where
  limiter : LimiterAnswers
  selection : SelectionEnv
  /-- `std::env::var(..).ok()`. -/
  vars : String → Option String
  manager : PluginManager
  requestId : String

/-- What a request to `route` meets besides. -/
structure RouteEnv extends RequestEnv where
  /-- What the response cache answers now; `none` where caching is off. -/
  cache : Option (String → Option ChatCompletionResponse)
  digest : CacheDocument → String
  /-- The id of the context that is only made to record a refusal. -/
  auditId : String
  trial : ℕ → Trial ChatCompletionResponse

/-- Nothing in the way: buckets with tokens and no plugins. -/
def RequestEnv.plain : RequestEnv where
  limiter := .open
  selection := ⟨id, fun _ _ ↦ false, 0, fun _ ↦ 0⟩
  vars := fun _ ↦ none
  manager := .new
  requestId := "request"

/-- Nothing in the way, no cache, and providers that answer. -/
def RouteEnv.plain : RouteEnv where
  toRequestEnv := .plain
  cache := none
  digest := fun _ ↦ ""
  auditId := "audit"
  trial := fun _ ↦ ⟨true, .ok (.ofText "response" "gpt-4o" "hello"), 1⟩

/-- One `Provider::complete`. -/
structure ProviderCall where
  target : Target
  client : ProviderClient
  request : ChatCompletionRequest
  key : String

/-- Where the response of a call comes from. -/
structure Answer where
  target : Target
  result : Except ProviderError ChatCompletionResponse
  latencyMs : ℕ
  calls : List ProviderCall

/-- One call of `route`: what it returns and what it does on the way. -/
structure RouteRun where
  result : Except GatewayError ChatCompletionResponse
  /-- The events given to `record_full`. -/
  records : List RequestEvent
  calls : List ProviderCall
  /-- The key looked up in the response cache. -/
  lookup : Option String
  /-- The entry written to the response cache. -/
  insert : Option (String × ChatCompletionResponse)

/-- The stand-in for a target of a response from the cache. -/
def cacheTarget : Target := .ofProvider "cache"

/-- `set_provider`, `set_latency`, `set_tokens` and `set_response`, as `route` calls them. -/
def PluginContext.observe (ctx : PluginContext) (answer : Answer) : PluginContext :=
  let ctx := { ctx with provider := some answer.target.provider, latency := some answer.latencyMs }
  match answer.result with
  | .error _ => ctx
  | .ok response =>
    { ctx with
      tokensUsed := (response.usage.map (·.totalTokens)).or ctx.tokensUsed
      response := some response }

namespace Gateway

section Prologue

variable (g : Gateway) (env : RequestEnv) (request : ChatCompletionRequest)
  (auth : Option AuthContext)

/-- The guards of `prepare_request`, in their order. -/
def checkGuards : Except GatewayError Unit :=
  match checkRateLimits env.limiter g.config auth with
  | .error e => .error e
  | .ok () =>
    match checkTokenBudgets g.config auth request with
    | .error e => .error e
    | .ok () =>
      match checkOrgGuardrails env.selection.toLowercase g.config auth request with
      | .error e => .error e
      | .ok () => checkRbacModel g.config auth request.model

/-- The context the before-request plugins start with. -/
def freshContext (remoteIp : Option String) : PluginContext :=
  { PluginContext.fromRequest env.requestId request auth with remoteIp := remoteIp }

/-- `Gateway::prepare_request`. -/
def prepareRequest (remoteIp : Option String) : Except GatewayError PluginContext :=
  match g.checkGuards env request auth with
  | .error e => .error e
  | .ok () =>
    match env.manager.runBefore (freshContext env request auth remoteIp) with
    | (ctx, .ok ()) => .ok ctx
    | (_, .error e) => .error (mapPluginError e)

end Prologue

variable (g : Gateway) (env : RouteEnv) (request : ChatCompletionRequest)
  (auth : Option AuthContext)

/-- The event of a request that was refused before it was routed. -/
def refusal (e : GatewayError) : RequestEvent :=
  { RequestEvent.start auth env.auditId "" request 0 with
    error := some e.display
    guardrailActions := ["reject"] }

/-- The key `route` uses, where it uses the response cache. -/
def routeKey : Option String :=
  if !request.stream && env.cache.isSome then
    some (cacheKey env.digest request (auth.bind (·.orgId)) (auth.bind (·.teamId)))
  else none

/-- The lookup of `route`. -/
def cachedResponse : Option ChatCompletionResponse :=
  (routeKey env request auth).bind fun key ↦ env.cache.bind (· key)

/-- The answer of the providers. -/
def fetch : Except GatewayError Answer :=
  match g.selectTargets env.selection request auth with
  | .error e => .error e
  | .ok ordered =>
    match g.failover env.vars (fun t client key ↦ ProviderCall.mk t client request key) ordered
      env.trial 0 with
    | none => .error (.internal "No targets configured")
    | some e => .ok ⟨e.target, e.result.mapError AttemptError.flatten, e.latencyMs, e.calls⟩

/-- The answer of the cache or else of the providers. -/
def answer : Except GatewayError Answer :=
  match cachedResponse env request auth with
  | some response => .ok ⟨cacheTarget, .ok response, 0, []⟩
  | none => g.fetch env request auth

/-- The last lines of `route`: record, write to the cache, return. -/
def conclude (ctx : PluginContext) (answer : Answer) (actions : List String) : RouteRun :=
  let start :=
    { RequestEvent.start auth ctx.requestId answer.target.provider request answer.latencyMs with
      guardrailActions := actions }
  match answer.result with
  | .error e =>
    { result := .error e.toGatewayError
      records := [{ start with error := some e.display }]
      calls := answer.calls
      lookup := routeKey env request auth
      insert := none }
  | .ok response =>
    { result := .ok response
      records := [start.succeed (extractResponseText response) (usageOf response)]
      calls := answer.calls
      lookup := routeKey env request auth
      insert := (routeKey env request auth).map (·, response) }

/-- From the answer on: the after-request plugins, the response guardrails, and the end. -/
def finish (ctx : PluginContext) (answer : Answer) : RouteRun :=
  let ctx := env.manager.runAfter (ctx.observe answer)
  let start :=
    RequestEvent.start auth ctx.requestId answer.target.provider request answer.latencyMs
  match answer.result.toOption.bind fun response ↦
    (extractResponseText response).map (response, ·) with
  | none => conclude env request auth ctx answer []
  | some (response, content) =>
    match env.manager.runResponseGuardrails ctx content with
    | .ok .allow => conclude env request auth ctx answer []
    | .ok (.reject reason) =>
      { result := .error (.badRequest ("Response blocked by guardrail: " ++ reason))
        records :=
          [{ start with
              error := some ("Guardrail rejected: " ++ reason)
              guardrailActions := ["reject: " ++ reason] }]
        calls := answer.calls
        lookup := routeKey env request auth
        insert := none }
    | .ok (.redact redacted) =>
      let redactedResponse := redactResponseText response redacted
      { result := .ok redactedResponse
        records :=
          [{ start.succeed (extractResponseText redactedResponse) (usageOf response) with
              guardrailActions := ["redact"] }]
        calls := answer.calls
        lookup := routeKey env request auth
        insert := none }
    | .error e => conclude env request auth ctx answer ["error: " ++ e.display]

/-- `Gateway::route`. -/
def route (remoteIp : Option String) : RouteRun :=
  match g.prepareRequest env.toRequestEnv request auth remoteIp with
  | .error e =>
    { result := .error e
      records := [refusal env request auth e]
      calls := []
      lookup := none
      insert := none }
  | .ok ctx =>
    match g.answer env ctx.request auth with
    | .error e =>
      { result := .error e
        records := []
        calls := []
        lookup := routeKey env ctx.request auth
        insert := none }
    | .ok answer => finish env ctx.request auth ctx answer

end Gateway

/-! ### How a call ends -/

/-- The call is recorded by exactly one event, a success exactly when it returns a response. -/
structure RouteRun.RecordedOnce (run : RouteRun) : Prop where
  once : run.records.length = 1
  status : ∀ event ∈ run.records, event.status = .success ↔ ∃ response, run.result = .ok response

/-- The call is recorded by one event, of the request it is given. -/
structure RouteRun.Records (run : RouteRun) (request : ChatCompletionRequest)
    (event : RequestEvent) : Prop where
  only : run.records = [event]
  messages : event.messages = auditMessages request
  status : event.status = .success ↔ ∃ response, run.result = .ok response

theorem RouteRun.Records.of_success {run : RouteRun} {request : ChatCompletionRequest}
    {event : RequestEvent} {response : ChatCompletionResponse} (honly : run.records = [event])
    (hmessages : event.messages = auditMessages request) (hresult : run.result = .ok response)
    (hstatus : event.status = .success) : run.Records request event :=
  ⟨honly, hmessages, iff_of_true hstatus ⟨response, hresult⟩⟩

theorem RouteRun.Records.of_error {run : RouteRun} {request : ChatCompletionRequest}
    {event : RequestEvent} {e : GatewayError} (honly : run.records = [event])
    (hmessages : event.messages = auditMessages request) (hresult : run.result = .error e)
    (hstatus : event.status = .error) : run.Records request event := by
  refine ⟨honly, hmessages, ?_⟩
  rw [hstatus, hresult]
  exact iff_of_false (fun h ↦ (by cases h)) fun ⟨_, h⟩ ↦ (by cases h)

theorem RouteRun.Records.recordedOnce {run : RouteRun} {request : ChatCompletionRequest}
    {event : RequestEvent} (h : run.Records request event) : run.RecordedOnce := by
  constructor
  · rw [h.only, List.length_singleton]
  · intro event' hevent
    rw [h.only, List.mem_singleton] at hevent
    rw [hevent]
    exact h.status

/-- A call from its answer on, wherever it ends: it is recorded, has asked what the answer asked,
and writes to the cache only under the key it looked up. -/
structure RouteRun.Ends (run : RouteRun) (env : RouteEnv) (request : ChatCompletionRequest)
    (auth : Option AuthContext) (answer : Answer) : Prop where
  records : ∃ event, run.Records request event
  calls : run.calls = answer.calls
  lookup : run.lookup = Gateway.routeKey env request auth
  insert : ∀ entry ∈ run.insert, Gateway.routeKey env request auth = some entry.1

namespace Gateway

variable {g : Gateway} {env : RouteEnv} {request : ChatCompletionRequest}
  {auth : Option AuthContext}

theorem ends_conclude {ctx : PluginContext} {answer : Answer} {actions : List String} :
    (conclude env request auth ctx answer actions).Ends env request auth answer := by
  unfold conclude
  cases answer.result with
  | ok response =>
    refine ⟨⟨_, .of_success rfl rfl rfl rfl⟩, rfl, rfl, fun entry hentry ↦ ?_⟩
    obtain ⟨key, hkey, rfl⟩ := Option.map_eq_some_iff.1 hentry
    exact hkey
  | error e => exact ⟨⟨_, .of_error rfl rfl rfl rfl⟩, rfl, rfl, fun _ h ↦ (by cases h)⟩

theorem ends_finish {ctx : PluginContext} {answer : Answer} :
    (finish env request auth ctx answer).Ends env request auth answer := by
  unfold finish
  dsimp only
  split
  · exact ends_conclude
  · split
    · exact ends_conclude
    -- a guardrail rejects the response, or redacts it: neither is written to the cache
    · exact ⟨⟨_, .of_error rfl rfl rfl rfl⟩, rfl, rfl, fun _ h ↦ (by cases h)⟩
    · exact ⟨⟨_, .of_success rfl rfl rfl rfl⟩, rfl, rfl, fun _ h ↦ (by cases h)⟩
    · exact ends_conclude

/-! ### What the answer is -/

theorem cachedResponse_of_cache_none (h : env.cache = none) :
    cachedResponse env request auth = none := by
  rw [cachedResponse, h]
  cases routeKey env request auth <;> rfl

theorem answer_of_miss (h : cachedResponse env request auth = none) :
    g.answer env request auth = g.fetch env request auth := by rw [answer, h]

theorem answer_of_hit {response : ChatCompletionResponse}
    (h : cachedResponse env request auth = some response) :
    g.answer env request auth = .ok ⟨cacheTarget, .ok response, 0, []⟩ := by rw [answer, h]

/-- The providers answer when the loop over the selected targets ends. -/
theorem fetch_eq_ok {answered : Answer} : g.fetch env request auth = .ok answered ↔
    ∃ allowed, g.selectTargets env.selection request auth = .ok allowed ∧
      ∃ e, g.failover env.vars (fun t client key ↦ ProviderCall.mk t client request key) allowed
          env.trial 0 = some e ∧
        answered = ⟨e.target, e.result.mapError AttemptError.flatten, e.latencyMs, e.calls⟩ := by
  rw [fetch]
  constructor
  · intro h
    split at h
    · cases h
    · next allowed hallowed =>
      split at h
      · cases h
      · next e he => exact ⟨allowed, hallowed, e, he, (Except.ok.inj h).symm⟩
  · rintro ⟨allowed, hallowed, e, he, rfl⟩
    rw [hallowed]
    dsimp only
    rw [he]

/-- Only providers that were selected are asked. -/
theorem exists_of_mem_answer {answered : Answer} (h : g.answer env request auth = .ok answered)
    {call : ProviderCall} (hcall : call ∈ answered.calls) :
    ∃ allowed, g.selectTargets env.selection request auth = .ok allowed ∧
      ∃ e, g.failover env.vars (fun t client key ↦ ProviderCall.mk t client request key) allowed
          env.trial 0 = some e ∧ call ∈ e.calls := by
  cases hcached : cachedResponse env request auth with
  | some response =>
    obtain rfl := Except.ok.inj ((answer_of_hit hcached).symm.trans h)
    cases hcall
  | none =>
    obtain ⟨allowed, hallowed, e, he, rfl⟩ := fetch_eq_ok.1 ((answer_of_miss hcached).symm.trans h)
    exact ⟨allowed, hallowed, e, he, hcall⟩

/-- The loop ends somewhere unless there is nothing to try. -/
theorem exists_failover {α β : Type*} {vars : String → Option String}
    {op : Target → ProviderClient → String → β} {ordered : List Target} (h : ordered ≠ [])
    (trial : ℕ → Trial α) (latencyMs : ℕ) :
    ∃ e, g.failover vars op ordered trial latencyMs = some e := by
  cases ordered with
  | nil => exact absurd rfl h
  | cons t rest =>
    rw [failover]
    split
    · split <;> exact ⟨_, rfl⟩
    · exact ⟨_, rfl⟩

/-- The operations of the loop are those of a sweep over the candidates. -/
theorem calls_failover {α β : Type*} {vars : String → Option String}
    {op : Target → ProviderClient → String → β} {ordered : List Target} {trial : ℕ → Trial α}
    {latencyMs : ℕ} {e : FailoverEnd α β}
    (h : g.failover vars op ordered trial latencyMs = some e) :
    e.calls = Sweep.run (fun t w ↦ (g.operation vars op t w, (g.tryTarget vars t w).2)) ordered
      trial := by
  induction ordered generalizing trial latencyMs e with
  | nil => cases h
  | cons t rest ih =>
    rw [failover] at h
    rw [Sweep.run]
    split at h
    · next hnext =>
      rw [if_pos hnext]
      split at h
      · next later hlater =>
        obtain rfl := Option.some.inj h
        exact congrArg _ (ih hlater)
      · next hnone =>
        obtain rfl := Option.some.inj h
        -- the loop has no end only where nothing is left
        have hrest : rest = [] := by
          by_contra hne
          obtain ⟨e, he⟩ := exists_failover hne (fun i ↦ trial (i + 1)) _
          rw [he] at hnone
          cases hnone
        rw [hrest]
        exact (List.append_nil _).symm
    · next hstop =>
      rw [if_neg hstop]
      obtain rfl := Option.some.inj h
      exact (List.append_nil _).symm

/-- The providers are asked exactly when selection succeeds. -/
theorem exists_fetch_iff : (∃ answer, g.fetch env request auth = .ok answer) ↔
    g.Routable env.selection request auth := by
  rw [routable_iff]
  constructor
  · rintro ⟨answered, h⟩
    obtain ⟨allowed, hallowed, -⟩ := fetch_eq_ok.1 h
    exact ⟨allowed, hallowed⟩
  · rintro ⟨allowed, hallowed⟩
    obtain ⟨e, he⟩ := exists_failover (selectTargets_ne_nil hallowed) env.trial 0
    exact ⟨_, fetch_eq_ok.2 ⟨allowed, hallowed, e, he, rfl⟩⟩

/-! ### Accounting -/

theorem recordedOnce_finish {ctx : PluginContext} {answer : Answer} :
    (finish env request auth ctx answer).RecordedOnce := by
  obtain ⟨event, hevent⟩ : ∃ event, (finish env request auth ctx answer).Records request event :=
    ends_finish.records
  exact hevent.recordedOnce

/-- A call is recorded once unless it passes the guards and the plugins, is not answered from the
cache, and finds nothing to route to: that exit records nothing. -/
theorem recorded_once_iff {remoteIp : Option String} :
    (g.route env request auth remoteIp).RecordedOnce ↔
      ∀ ctx, g.prepareRequest env.toRequestEnv request auth remoteIp = .ok ctx →
        cachedResponse env ctx.request auth = none →
          g.Routable env.selection ctx.request auth := by
  unfold route
  cases hprepare : g.prepareRequest env.toRequestEnv request auth remoteIp with
  | error e =>
    -- a refusal before the routing is recorded
    have hrefused : RouteRun.Records ⟨.error e, [refusal env request auth e], [], none, none⟩
        request _ := .of_error rfl rfl rfl rfl
    exact iff_of_true hrefused.recordedOnce fun ctx h ↦ (by cases h)
  | ok ctx =>
    dsimp only
    cases hcached : cachedResponse env ctx.request auth with
    | some response =>
      rw [answer_of_hit hcached]
      refine iff_of_true recordedOnce_finish fun ctx' h hmiss ↦ ?_
      rw [← Except.ok.inj h, hcached] at hmiss
      cases hmiss
    | none =>
      rw [answer_of_miss hcached]
      cases hfetch : g.fetch env ctx.request auth with
      | ok fetched =>
        refine iff_of_true recordedOnce_finish fun ctx' h _ ↦ ?_
        rw [← Except.ok.inj h]
        exact exists_fetch_iff.1 ⟨fetched, hfetch⟩
      | error e =>
        -- the exit through the error operator
        refine iff_of_false (fun h ↦ Nat.zero_ne_one h.once) fun h ↦ ?_
        obtain ⟨fetched, hok⟩ := exists_fetch_iff.2 (h ctx rfl hcached)
        rw [hfetch] at hok
        cases hok

/-- A gateway whose one target lists one model. -/
def oneModel : Gateway :=
  .new (fun _ ↦ none)
    { Config.default with
      targets := [{ Target.ofProvider "openai" with models := some ["gpt-4o"] }] }

theorem unroutable_unrecorded :
    ¬ (oneModel.route .plain (.ofMessages "gpt-5" [.user "hello"]) none none).RecordedOnce :=
  fun h ↦ absurd h.once (by decide)

end Gateway

end Himadri
