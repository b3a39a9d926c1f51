import Himadri.Gateway.Stream

/-!
# The request of record

The before-request plugins may rewrite a request, and what they leave is the request of record: the
one the providers, the response cache and the audit log are meant to see. Everything a call does
after its prologue sees only that one. A request refused in the prologue is recorded as the client
sent it, so a plugin's rewriting is undone in the record when a plugin behind it refuses.
-/

namespace Himadri

/-- The events, the provider calls and the cache entries of a call are those of one request. -/
structure RouteRun.SeesOnly (run : RouteRun) (record : ChatCompletionRequest) (key : String) :
    Prop where
  messages : ∀ event ∈ run.records, event.messages = auditMessages record
  calls : ∀ call ∈ run.calls, call.request = record
  lookup : ∀ k ∈ run.lookup, k = key
  insert : ∀ entry ∈ run.insert, entry.1 = key

/-- The events and the provider calls of a call are those of one request. -/
structure StreamRun.SeesOnly (run : StreamRun) (record : ChatCompletionRequest) : Prop where
  messages : ∀ event ∈ run.audits, event.messages = auditMessages record
  calls : ∀ call ∈ run.calls, call.request = record

namespace Gateway

/-- The request as the before-request plugins that ran leave it; none runs before the guards have
passed. -/
def recordOf (g : Gateway) (env : RequestEnv) (request : ChatCompletionRequest)
    (auth : Option AuthContext) (remoteIp : Option String) : ChatCompletionRequest :=
  match g.checkGuards env request auth with
  | .error _ => request
  | .ok () => (env.manager.runBefore (freshContext env request auth remoteIp)).1.request

variable {g : Gateway} {request : ChatCompletionRequest} {auth : Option AuthContext}
  {remoteIp : Option String}

section Prologue

variable {env : RequestEnv}

theorem request_of_prepareRequest {ctx : PluginContext}
    (h : g.prepareRequest env request auth remoteIp = .ok ctx) :
    ctx.request = g.recordOf env request auth remoteIp := by
  rw [prepareRequest] at h
  rw [recordOf]
  cases hguards : g.checkGuards env request auth with
  | error e =>
    rw [hguards] at h
    cases h
  | ok =>
    rw [hguards] at h
    dsimp only at h ⊢
    split at h
    · next hrun =>
      obtain rfl := Except.ok.inj h
      rw [hrun]
    · cases h

/-- The plugin that refuses leaves the messages as the client wrote them, and so do the ones before
it; nothing is asked where no plugin refuses. -/
def RefusalKeepsMessages (g : Gateway) (env : RequestEnv) (request : ChatCompletionRequest)
    (auth : Option AuthContext) (remoteIp : Option String) : Prop :=
  g.checkGuards env request auth = .ok () → ∀ ctx e,
    env.manager.runBefore (freshContext env request auth remoteIp) = (ctx, .error e) →
      auditMessages ctx.request = auditMessages request

theorem refusalKeepsMessages_iff : g.RefusalKeepsMessages env request auth remoteIp ↔
    ∀ e, g.prepareRequest env request auth remoteIp = .error e →
      auditMessages (g.recordOf env request auth remoteIp) = auditMessages request := by
  rw [RefusalKeepsMessages, prepareRequest, recordOf]
  cases g.checkGuards env request auth with
  | error e => exact iff_of_true (fun h ↦ (by cases h)) fun _ _ ↦ rfl
  | ok u =>
    obtain ⟨ctx, result⟩ := env.manager.runBefore (freshContext env request auth remoteIp)
    cases result with
    | ok u => exact iff_of_true (fun _ _ _ h ↦ (by cases h)) fun _ h ↦ (by cases h)
    | error e =>
      constructor
      · intro h _ _
        exact h rfl ctx e rfl
      · rintro h - ctx' e' heq
        obtain ⟨rfl, -⟩ := Prod.mk.inj heq
        exact h _ rfl

end Prologue

/-! ### After the prologue -/

theorem request_of_mem_failover {α : Type*} {vars : String → Option String}
    {ordered : List Target} {trial : ℕ → Trial α} {latencyMs : ℕ} {e : FailoverEnd α ProviderCall}
    (h : g.failover vars (fun t client key ↦ ProviderCall.mk t client request key) ordered trial
      latencyMs = some e) : ∀ call ∈ e.calls, call.request = request := by
  intro call hcall
  rw [calls_failover h] at hcall
  obtain ⟨t, -, w, hw⟩ := Sweep.exists_of_mem_run hcall
  dsimp only at hw
  rw [operation] at hw
  split at hw
  · split at hw
    · exact (Option.some.inj hw) ▸ rfl
    · cases hw
  · cases hw

section Route

variable {env : RouteEnv}

/-- The key of a request in the principal's scope. -/
def keyOf (env : RouteEnv) (request : ChatCompletionRequest) (auth : Option AuthContext) : String :=
  cacheKey env.digest request (auth.bind (·.orgId)) (auth.bind (·.teamId))

theorem eq_keyOf_of_mem_routeKey {k : String} (h : k ∈ routeKey env request auth) :
    k = keyOf env request auth := by
  rw [routeKey] at h
  split at h
  · exact (Option.some.inj h).symm
  · cases h

/-- A call that gets an answer sees from then on the request it was got for. -/
theorem seesOnly_finish {ctx : PluginContext} {answered : Answer}
    (h : g.answer env request auth = .ok answered) :
    (finish env request auth ctx answered).SeesOnly request (keyOf env request auth) := by
  have hends : (finish env request auth ctx answered).Ends env request auth answered := ends_finish
  obtain ⟨event, hevent⟩ := hends.records
  refine ⟨fun event' hmem ↦ ?_, fun call hcall ↦ ?_, fun k hk ↦ ?_, fun entry hentry ↦ ?_⟩
  · rw [hevent.only, List.mem_singleton] at hmem
    rw [hmem]
    exact hevent.messages
  · rw [hends.calls] at hcall
    obtain ⟨allowed, -, e, he, hmem⟩ := exists_of_mem_answer h hcall
    exact request_of_mem_failover he call hmem
  · rw [hends.lookup] at hk
    exact eq_keyOf_of_mem_routeKey hk
  · exact eq_keyOf_of_mem_routeKey (hends.insert entry hentry)

/-- `route` strays from the request of record only in the event of a refusal. -/
theorem route_seesOnly_iff :
    (g.route env request auth remoteIp).SeesOnly
        (g.recordOf env.toRequestEnv request auth remoteIp)
        (keyOf env (g.recordOf env.toRequestEnv request auth remoteIp) auth) ↔
      g.RefusalKeepsMessages env.toRequestEnv request auth remoteIp := by
  rw [refusalKeepsMessages_iff, route]
  cases hprepare : g.prepareRequest env.toRequestEnv request auth remoteIp with
  | error e =>
    constructor
    · intro h _ _
      exact (h.messages _ (List.mem_singleton_self _)).symm
    · intro h
      -- all there is of a refusal is its event, of the request as the client sent it
      refine ⟨fun event hevent ↦ ?_, fun _ h ↦ (by cases h), fun _ h ↦ (by cases h),
        fun _ h ↦ (by cases h)⟩
      rw [List.mem_singleton.1 hevent]
      exact (h e rfl).symm
  | ok ctx =>
    refine iff_of_true ?_ fun _ h ↦ (by cases h)
    rw [← request_of_prepareRequest hprepare]
    dsimp only
    cases hanswer : g.answer env ctx.request auth with
    | error e =>
      exact ⟨fun _ h ↦ (by cases h), fun _ h ↦ (by cases h), fun k ↦ eq_keyOf_of_mem_routeKey,
        fun _ h ↦ (by cases h)⟩
    | ok answered => exact seesOnly_finish hanswer

end Route

section Stream

variable {env : StreamEnv}

/-- `route_stream` sees the request of record alone: it records no refusal. -/
theorem routeStream_seesOnly :
    (g.routeStream env auth request remoteIp).SeesOnly
      (g.recordOf env.toRequestEnv request auth remoteIp) := by
  rw [routeStream]
  cases hprepare : g.prepareRequest env.toRequestEnv request auth remoteIp with
  | error e => exact ⟨fun _ h ↦ (by cases h), fun _ h ↦ (by cases h)⟩
  | ok ctx =>
    rw [← request_of_prepareRequest hprepare]
    dsimp only
    rw [openStream]
    split
    · exact ⟨fun _ h ↦ (by cases h), fun _ h ↦ (by cases h)⟩
    · split
      · exact ⟨fun _ h ↦ (by cases h), fun _ h ↦ (by cases h)⟩
      · next hfailover =>
        split
        · exact ⟨fun _ h ↦ (by cases h), request_of_mem_failover hfailover⟩
        · refine ⟨fun event hevent ↦ ?_, request_of_mem_failover hfailover⟩
          rw [List.mem_singleton.1 hevent]

end Stream

/-- Both paths see the request of record alone exactly when a plugin that refuses a request leaves
its messages, and those before it too, as the client wrote them. -/
theorem record_alone_iff {env : RouteEnv} :
    ((g.route env request auth remoteIp).SeesOnly
        (g.recordOf env.toRequestEnv request auth remoteIp)
        (keyOf env (g.recordOf env.toRequestEnv request auth remoteIp) auth) ∧
      ∀ trial, (g.routeStream ⟨env.toRequestEnv, trial⟩ auth request remoteIp).SeesOnly
        (g.recordOf env.toRequestEnv request auth remoteIp)) ↔
      g.RefusalKeepsMessages env.toRequestEnv request auth remoteIp :=
  (and_iff_left fun _ ↦ routeStream_seesOnly).trans route_seesOnly_iff

/-- A plugin that redacts the prompt, and one behind it that finds the budget spent. -/
def redactThenRefuse : PluginManager where
  beforeRequest :=
    [{ name := "pii-guardrail"
       stage := .beforeRequest
       alsoAfterRequest := false
       execute := fun ctx ↦
         ({ ctx with
            request := { ctx.request with messages := [.user "I am [EMAIL]"] } }, .ok ()) },
     { name := "budget"
       stage := .beforeRequest
       alsoAfterRequest := true
       execute := fun ctx ↦ (ctx, .error (.rejected "budget" "budget spent" .budgetExceeded)) }]
  afterRequest := []
  responseGuardrails := []

theorem refusal_records_the_original :
    ¬ (oneModel.route { RouteEnv.plain with manager := redactThenRefuse }
        (.ofMessages "gpt-4o" [.user "I am a@b.c"]) none none).SeesOnly
        (oneModel.recordOf { RequestEnv.plain with manager := redactThenRefuse }
          (.ofMessages "gpt-4o" [.user "I am a@b.c"]) none none) "" := by
  intro h
  have hmessages := h.messages _ (List.mem_singleton_self _)
  exact absurd hmessages (by decide)

end Gateway

end Himadri
