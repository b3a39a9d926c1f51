import Himadri.Gateway.Dispatch
import Himadri.Gateway.Record

/-!
# Embeddings, and the policy of the three paths

`embed` tries the live targets in their order, behind two of the guards the chat paths have: it asks
neither the model lists of the organisation and the team nor which targets serve the model.
-/

namespace Himadri

/-- One `Provider::embed`. -/
structure EmbeddingCall where
  target : Target
  client : ProviderClient
  request : EmbeddingRequest
  key : String

/-- One call of `embed`: what it returns, and the operations it runs on providers. -/
structure EmbedRun where
  result : Except GatewayError EmbeddingResponse
  calls : List EmbeddingCall

/-- What `Provider::embed` returns: a client that does not override it supports none. -/
def ProviderClient.embedResult (client : ProviderClient)
    (answer : Except ProviderError EmbeddingResponse) : Except ProviderError EmbeddingResponse :=
  if client.offersEmbeddings then answer
  else .error (.unsupported (client.name ++ " does not support embeddings"))

/-- A trial as far as what is sent depends on it. -/
def Trial.fate {α : Type*} (trial : Trial α) : Fate :=
  ⟨trial.admitted, trial.result.map fun _ ↦ ()⟩

namespace Gateway

section Loop

variable (g : Gateway) (vars : String → Option String) (request : EmbeddingRequest)

/-- One turn of the loop of `embed`: the operation it runs, and whether the loop goes on. -/
def visitEmbed (t : Target) (answer : Except ProviderError EmbeddingResponse) :
    Option EmbeddingCall × Bool :=
  match g.providers.get (routingKey t), g.getApiKey vars t with
  | some client, .ok key =>
    (some ⟨t, client, request, key⟩,
      embedFallsBack ((client.embedResult answer).map fun _ ↦ ()))
  | _, _ => (none, true)

/-- What `embed` returns if the loop ends after a turn; `last` is what it would have before. -/
def afterEmbed (t : Target) (answer : Except ProviderError EmbeddingResponse)
    (last : Except GatewayError EmbeddingResponse) : Except GatewayError EmbeddingResponse :=
  match g.providers.get (routingKey t) with
  | none => last
  | some client =>
    match g.getApiKey vars t with
    | .error e => .error e
    | .ok _ =>
      match client.embedResult answer with
      | .ok response => .ok response
      | .error (.unsupported _) => last
      | .error e => .error (.provider e.display)

/-- The loop of `embed`; `answer` is by position. -/
def embedLoop : (targets : List Target) → (answer : ℕ → Except ProviderError EmbeddingResponse) →
    (last : Except GatewayError EmbeddingResponse) → EmbedRun
  | [], _, last => ⟨last, []⟩
  | t :: rest, answer, last =>
    let last := g.afterEmbed vars t (answer 0) last
    let later := embedLoop rest (fun i ↦ answer (i + 1)) last
    let call := (g.visitEmbed vars request t (answer 0)).1.toList
    if (g.visitEmbed vars request t (answer 0)).2 then ⟨later.result, call ++ later.calls⟩
    else ⟨last, call⟩

/-- `Gateway::embed`. -/
def runEmbed (env : RequestEnv) (auth : Option AuthContext)
    (answer : ℕ → Except ProviderError EmbeddingResponse) : EmbedRun :=
  match checkRateLimits env.limiter g.config auth with
  | .error e => ⟨.error e, []⟩
  | .ok () =>
    match checkRbacModel g.config auth request.model with
    | .error e => ⟨.error e, []⟩
    | .ok () =>
      if g.targets.isEmpty then ⟨.error (.internal "No targets configured"), []⟩
      else
        match filterTargetsByRbac g.config auth g.targets with
        | .error e => ⟨.error e, []⟩
        | .ok targets =>
          g.embedLoop env.vars request targets answer
            (.error (.internal "No provider produced embeddings"))

variable {g vars request}

/-- The operations of the loop are those of a sweep over the targets. -/
theorem calls_embedLoop (targets : List Target)
    (answer : ℕ → Except ProviderError EmbeddingResponse)
    (last : Except GatewayError EmbeddingResponse) :
    (g.embedLoop vars request targets answer last).calls =
      Sweep.run (g.visitEmbed vars request) targets answer := by
  induction targets generalizing answer last with
  | nil => rfl
  | cons t rest ih =>
    rw [embedLoop, Sweep.run]
    split
    · exact congrArg _ (ih _ _)
    · exact (List.append_nil _).symm

theorem exists_visitEmbed_iff {t : Target} {call : EmbeddingCall} :
    (∃ answer, (g.visitEmbed vars request t answer).1 = some call) ↔
      ∃ client key, g.Resolves vars t client key ∧ call = ⟨t, client, request, key⟩ := by
  constructor
  · rintro ⟨answer, h⟩
    rw [visitEmbed] at h
    split at h
    · next client key hclient hkey => exact ⟨client, key, ⟨hclient, hkey⟩, (Option.some.inj h).symm⟩
    · cases h
  · rintro ⟨client, key, hresolves, rfl⟩
    refine ⟨.error (.network ""), ?_⟩
    simp only [visitEmbed, hresolves.client, hresolves.key]

/-- The operations `embed` can run on the targets that pass its filter. -/
theorem exists_mem_embedLoop_iff {targets : List Target}
    {last : Except GatewayError EmbeddingResponse} {call : EmbeddingCall} :
    (∃ answer, call ∈ (g.embedLoop vars request targets answer last).calls) ↔
      ∃ t ∈ targets, ∃ client key, g.Resolves vars t client key ∧
        call = ⟨t, client, request, key⟩ := by
  simp only [calls_embedLoop]
  have hpass : ∀ t ∈ targets, ∃ answer, (g.visitEmbed vars request t answer).2 = true := by
    refine fun t _ ↦ ⟨.error (.network ""), ?_⟩
    rw [visitEmbed]
    split
    · next client _ _ _ =>
      rw [ProviderClient.embedResult]
      cases client.offersEmbeddings <;> rfl
    · rfl
  exact (Sweep.exists_mem_run_iff hpass).trans
    (exists_congr fun t ↦ and_congr_right fun _ ↦ exists_visitEmbed_iff)

/-- The requests `embed` sends are those of its operations on clients that offer embeddings. -/
theorem sent_embedLoop (targets : List Target)
    (answer : ℕ → Except ProviderError EmbeddingResponse)
    (last : Except GatewayError EmbeddingResponse) :
    g.embed vars targets (fun i ↦ (answer i).map fun _ ↦ ()) =
      (g.embedLoop vars request targets answer last).calls.filterMap fun c ↦
        (c.client.embed c.key).toOption.map (c.target, ·) := by
  rw [calls_embedLoop, embed]
  refine Sweep.run_filterMap (fun t a ↦ ?_) answer
  rw [visitEmbedding, visitEmbed]
  cases g.providers.get (routingKey t) with
  | none => rfl
  | some client =>
    cases g.getApiKey vars t with
    | error e => rfl
    | ok key => cases client <;> rfl

/-- The requests `with_failover` sends are those of its operations. -/
theorem sent_failover {α : Type*} {chat : ChatCompletionRequest} {ordered : List Target}
    {trial : ℕ → Trial α} {latencyMs : ℕ} {e : FailoverEnd α ProviderCall}
    (h : g.failover vars (fun t client key ↦ ProviderCall.mk t client chat key) ordered trial
      latencyMs = some e) (send : ProviderClient → String → UpstreamRequest) :
    g.withFailover vars send ordered (fun i ↦ (trial i).fate) =
      e.calls.filterMap fun c ↦ some (c.target, send c.client c.key) := by
  rw [calls_failover h, withFailover]
  refine Sweep.run_filterMap (fun t w ↦ ?_) trial
  rw [visitCandidate, operation, tryTarget, attempt, outcome, Trial.fate]
  cases w.admitted with
  | false => rfl
  | true =>
    cases g.providers.get (routingKey t) with
    | none => rfl
    | some client =>
      cases g.getApiKey vars t with
      | error e => rfl
      | ok key => cases w.result <;> rfl

end Loop

/-! ### The policy of the three paths -/

section Policy

variable (g : Gateway) (env : RequestEnv) (auth : Option AuthContext) (remoteIp : Option String)
  (chat : ChatCompletionRequest) (request : EmbeddingRequest)

/-- The client and the key of the target are there. -/
def Callable (vars : String → Option String) (t : Target) : Prop :=
  ∃ client key, g.Resolves vars t client key

/-- The chat paths refuse the model to the principal: a list of the organisation or the team does,
or no live target serves it. -/
def RefusesModel (model : String) : Prop :=
  modelRefusal g.config auth model ≠ none ∨ g.eligible model = []

/-- The policy on models and providers, for one chat request and one embedding request of a
principal. -/
structure PolicyHolds : Prop where
  /-- Embeddings of a refused model ask no provider. -/
  refused : g.RefusesModel auth request.model →
    ∀ answer, (g.runEmbed request env auth answer).calls = []
  embed : ∀ answer, ∀ call ∈ (g.runEmbed request env auth answer).calls,
    grants g.config auth call.target.provider = true ∧
      targetServesModel call.target request.model = true
  route : ∀ cache digest auditId trial,
    ∀ call ∈ (g.route ⟨env, cache, digest, auditId, trial⟩ chat auth remoteIp).calls,
      grants g.config auth call.target.provider = true ∧
        targetServesModel call.target call.request.model = true
  stream : ∀ trial, ∀ call ∈ (g.routeStream ⟨env, trial⟩ auth chat remoteIp).calls,
    grants g.config auth call.target.provider = true ∧
      targetServesModel call.target call.request.model = true

/-- Unless the rate limiter or the roles refuse the request, every live target that the roles grant
and that can be called serves the model, and the lists do not refuse it if there is any. -/
def EmbedsWithinPolicy : Prop :=
  checkRateLimits env.limiter g.config auth = .ok () →
    checkRbacModel g.config auth request.model = .ok () →
      ∀ t ∈ g.targets, grants g.config auth t.provider = true → g.Callable env.vars t →
        targetServesModel t request.model = true ∧ modelRefusal g.config auth request.model = none

/-- Once the request has passed the guards and the plugins and some live target serves its model,
the target that the strategy inserts serves it, if the roles grant it and it can be called. -/
def InsertsWithinPolicy : Prop :=
  ∀ ctx, g.prepareRequest env chat auth remoteIp = .ok ctx →
    g.eligible ctx.request.model ≠ [] →
      ∀ t, g.strategy.inserted env.selection ctx.request = some t →
        grants g.config auth t.provider = true → g.Callable env.vars t →
          targetServesModel t ctx.request.model = true

/-- What the chat paths ask once the prologue is through: a provider of a selected target that
resolves. -/
def Asks (ctx : PluginContext) (call : ProviderCall) : Prop :=
  ∃ allowed, g.selectTargets env.selection ctx.request auth = .ok allowed ∧
    ∃ t ∈ allowed, ∃ client key, g.Resolves env.vars t client key ∧
      call = ⟨t, client, ctx.request, key⟩

variable {g env auth remoteIp chat request}

/-- A model the lists refuse gets no further than the guards. -/
theorem prepareRequest_of_modelRefusal (h : modelRefusal g.config auth chat.model ≠ none) :
    ∃ e, g.prepareRequest env chat auth remoteIp = .error e := by
  have hguards : ∃ e, g.checkGuards env chat auth = .error e := by
    rw [checkGuards]
    split
    · exact ⟨_, rfl⟩
    · split
      · exact ⟨_, rfl⟩
      · split
        · exact ⟨_, rfl⟩
        · next hok => exact absurd (checkOrgGuardrails_eq_ok.1 hok).1 h
  obtain ⟨e, he⟩ := hguards
  exact ⟨e, by rw [prepareRequest, he]⟩

/-- On the chat paths a refused model leads nowhere, unless a plugin puts another in its place. -/
theorem RefusesModel.not_routable (h : g.RefusesModel auth chat.model) {ctx : PluginContext}
    (hprepare : g.prepareRequest env chat auth remoteIp = .ok ctx)
    (hmodel : ctx.request.model = chat.model) : ¬ g.Routable env.selection ctx.request auth := by
  rcases h with hrefused | hnone
  · have hrefuses : ∃ e, g.prepareRequest env chat auth remoteIp = .error e :=
      prepareRequest_of_modelRefusal hrefused
    obtain ⟨e, he⟩ := hrefuses
    rw [he] at hprepare
    cases hprepare
  · rw [routable_iff]
    rintro ⟨allowed, hallowed⟩
    exact (selectTargets_eq_ok.1 hallowed).1 (by rwa [hmodel])

/-- What `embed` can ask. -/
theorem exists_mem_runEmbed_iff {call : EmbeddingCall} :
    (∃ answer, call ∈ (g.runEmbed request env auth answer).calls) ↔
      checkRateLimits env.limiter g.config auth = .ok () ∧
        checkRbacModel g.config auth request.model = .ok () ∧
          ∃ t ∈ g.targets, grants g.config auth t.provider = true ∧
            ∃ client key, g.Resolves env.vars t client key ∧ call = ⟨t, client, request, key⟩ := by
  constructor
  · rintro ⟨answer, h⟩
    rw [runEmbed] at h
    split at h
    · cases h
    · next hlimits =>
      split at h
      · cases h
      · next hmodel =>
        split at h
        · cases h
        · split at h
          · cases h
          · next hfilter =>
            obtain ⟨t, ht, hcall⟩ := exists_mem_embedLoop_iff.1 ⟨answer, h⟩
            obtain ⟨hmem, hgrants⟩ := filterTargetsByRbac_subset hfilter t ht
            exact ⟨hlimits, hmodel, t, hmem, hgrants, hcall⟩
  · rintro ⟨hlimits, hmodel, t, ht, hgrants, hcall⟩
    have hkept : t ∈ g.targets.filter (grants g.config auth ·.provider) :=
      List.mem_filter.2 ⟨ht, hgrants⟩
    have hfilter : filterTargetsByRbac g.config auth g.targets = .ok _ :=
      filterTargetsByRbac_eq_ok.2 ⟨rfl, fun _ _ ↦ List.ne_nil_of_mem hkept⟩
    have hempty : g.targets.isEmpty = false := List.isEmpty_eq_false_iff.2 (List.ne_nil_of_mem ht)
    simp only [runEmbed, hlimits, hmodel, hempty, hfilter, Bool.false_eq_true, if_false]
    exact exists_mem_embedLoop_iff.2 ⟨t, hkept, hcall⟩

/-- The operations `with_failover` can run. -/
theorem exists_mem_failover_iff {α β : Type*} {vars : String → Option String}
    {op : Target → ProviderClient → String → β}
    {ordered : List Target} (latencyMs : ℕ) {call : β} :
    (∃ trial : ℕ → Trial α, ∃ e, g.failover vars op ordered trial latencyMs = some e ∧
        call ∈ e.calls) ↔
      ∃ t ∈ ordered, ∃ client key, g.Resolves vars t client key ∧ call = op t client key := by
  have hvisit {t : Target} : (∃ w : Trial α, g.operation vars op t w = some call) ↔
      ∃ client key, g.Resolves vars t client key ∧ call = op t client key := by
    constructor
    · rintro ⟨w, h⟩
      rw [operation] at h
      split at h
      · split at h
        · next client key hclient hkey =>
          exact ⟨client, key, ⟨hclient, hkey⟩, (Option.some.inj h).symm⟩
        · cases h
      · cases h
    · rintro ⟨client, key, hresolves, rfl⟩
      refine ⟨⟨true, .error (.network ""), 0⟩, ?_⟩
      simp only [operation, hresolves.client, hresolves.key, if_true]
  -- a breaker that does not admit passes the candidate over
  have hpass : ∀ t ∈ ordered, ∃ w : Trial α,
      ((g.operation vars op t w, (g.tryTarget vars t w).2) : Option β × Bool).2 = true :=
    fun t _ ↦ ⟨⟨false, .error (.network ""), 0⟩, rfl⟩
  refine Iff.trans ?_ ((Sweep.exists_mem_run_iff hpass).trans
    (exists_congr fun t ↦ and_congr_right fun _ ↦ hvisit))
  refine exists_congr fun trial ↦ ⟨?_, fun h ↦ ?_⟩
  · rintro ⟨e, he, hcall⟩
    rwa [← calls_failover he]
  · have hne : ordered ≠ [] := by
      rintro rfl
      cases h
    obtain ⟨e, he⟩ := exists_failover hne trial latencyMs
    exact ⟨e, he, by rwa [calls_failover he]⟩

/-- What `route` can ask. -/
theorem exists_mem_route_iff {call : ProviderCall} :
    (∃ cache digest auditId trial,
        call ∈ (g.route ⟨env, cache, digest, auditId, trial⟩ chat auth remoteIp).calls) ↔
      ∃ ctx, g.prepareRequest env chat auth remoteIp = .ok ctx ∧ g.Asks env auth ctx call := by
  constructor
  · rintro ⟨cache, digest, auditId, trial, h⟩
    rw [route] at h
    split at h
    · cases h
    · next ctx hprepare =>
      split at h
      · cases h
      · next answered hanswer =>
        rw [ends_finish.calls] at h
        obtain ⟨allowed, hallowed, e, he, hmem⟩ := exists_of_mem_answer hanswer h
        exact ⟨ctx, hprepare, allowed, hallowed,
          (exists_mem_failover_iff 0).1 ⟨trial, e, he, hmem⟩⟩
  · rintro ⟨ctx, hprepare, allowed, hallowed, hcall⟩
    obtain ⟨trial, e, he, h⟩ := (exists_mem_failover_iff 0).2 hcall
    refine ⟨none, fun _ ↦ "", "", trial, ?_⟩
    have hanswer : g.answer ⟨env, none, fun _ ↦ "", "", trial⟩ ctx.request auth =
        .ok ⟨e.target, e.result.mapError AttemptError.flatten, e.latencyMs, e.calls⟩ := by
      rw [answer_of_miss (cachedResponse_of_cache_none rfl)]
      exact fetch_eq_ok.2 ⟨allowed, hallowed, e, he, rfl⟩
    rw [route, hprepare]
    dsimp only
    rwa [hanswer, ends_finish.calls]

/-- What `route_stream` can ask. -/
theorem exists_mem_routeStream_iff {call : ProviderCall} :
    (∃ trial, call ∈ (g.routeStream ⟨env, trial⟩ auth chat remoteIp).calls) ↔
      ∃ ctx, g.prepareRequest env chat auth remoteIp = .ok ctx ∧ g.Asks env auth ctx call := by
  constructor
  · rintro ⟨trial, h⟩
    rw [routeStream] at h
    split at h
    · cases h
    · next ctx hprepare =>
      rw [openStream] at h
      split at h
      · cases h
      · next allowed hallowed =>
        split at h
        · cases h
        · next e he =>
          refine ⟨ctx, hprepare, allowed, hallowed,
            (exists_mem_failover_iff 0).1 ⟨trial, e, he, ?_⟩⟩
          split at h <;> exact h
  · rintro ⟨ctx, hprepare, allowed, hallowed, hcall⟩
    obtain ⟨trial, e, he, h⟩ := (exists_mem_failover_iff 0).2 hcall
    refine ⟨trial, ?_⟩
    rw [routeStream, hprepare]
    dsimp only
    rw [openStream, hallowed]
    dsimp only
    rw [he]
    dsimp only
    cases e.result <;> exact h

/-- Within the policy, what the chat paths ask serves the model. -/
theorem InsertsWithinPolicy.of_asks (h : g.InsertsWithinPolicy env auth remoteIp chat)
    {ctx : PluginContext} (hprepare : g.prepareRequest env chat auth remoteIp = .ok ctx)
    {call : ProviderCall} (hasks : g.Asks env auth ctx call) :
    grants g.config auth call.target.provider = true ∧
      targetServesModel call.target call.request.model = true := by
  obtain ⟨allowed, hallowed, t, ht, client, key, hresolves, rfl⟩ := hasks
  obtain ⟨hgrants, hlive | hinserted⟩ := mem_selectTargets hallowed ht
  · exact ⟨hgrants, (mem_eligible.1 hlive).2⟩
  · exact ⟨hgrants, h ctx hprepare (selectTargets_eq_ok.1 hallowed).1 t hinserted hgrants
      ⟨client, key, hresolves⟩⟩

/-- **The policy holds on the three paths exactly when neither of their gaps is met**: `embed` has
only targets to try that the chat paths would accept for the model, and the chat paths insert none
that they would not select. -/
theorem policyHolds_iff : g.PolicyHolds env auth remoteIp chat request ↔
    g.EmbedsWithinPolicy env auth request ∧ g.InsertsWithinPolicy env auth remoteIp chat := by
  constructor
  · intro h
    refine ⟨fun hlimits hmodel t ht hgrants ⟨client, key, hresolves⟩ ↦ ?_,
      fun ctx hprepare hne t hinserted hgrants ⟨client, key, hresolves⟩ ↦ ?_⟩
    -- every callable target is asked in some run of `embed`
    · obtain ⟨answer, hcall⟩ := exists_mem_runEmbed_iff.2
        ⟨hlimits, hmodel, t, ht, hgrants, client, key, hresolves, rfl⟩
      refine ⟨(h.embed answer _ hcall).2, ?_⟩
      by_contra hrefusal
      rw [h.refused (.inl hrefusal) answer] at hcall
      cases hcall
    -- an inserted target is asked in some run of `route`
    · obtain ⟨allowed, hallowed, ht⟩ := exists_selectTargets_of_inserted hne hinserted hgrants
      obtain ⟨cache, digest, auditId, trial, hcall⟩ := exists_mem_route_iff.2
        ⟨ctx, hprepare, allowed, hallowed, t, ht, client, key, hresolves, rfl⟩
      exact (h.route cache digest auditId trial _ hcall).2
  · rintro ⟨hembeds, hinserts⟩
    have hembed {answer call} (hcall : call ∈ (g.runEmbed request env auth answer).calls) :
        grants g.config auth call.target.provider = true ∧ call.target ∈ g.targets ∧
          targetServesModel call.target request.model = true ∧
            modelRefusal g.config auth request.model = none := by
      obtain ⟨hlimits, hmodel, t, ht, hgrants, client, key, hresolves, rfl⟩ :=
        exists_mem_runEmbed_iff.1 ⟨answer, hcall⟩
      exact ⟨hgrants, ht, hembeds hlimits hmodel t ht hgrants ⟨client, key, hresolves⟩⟩
    refine ⟨fun hrefuses answer ↦ ?_, fun answer call hcall ↦ ?_,
      fun cache digest auditId trial call hcall ↦ ?_, fun trial call hcall ↦ ?_⟩
    · refine List.eq_nil_iff_forall_not_mem.2 fun call hcall ↦ ?_
      obtain ⟨-, ht, hserves, hrefusal⟩ := hembed hcall
      rcases hrefuses with hlists | hnone
      · exact hlists hrefusal
      · exact List.ne_nil_of_mem (mem_eligible.2 ⟨ht, hserves⟩) hnone
    · obtain ⟨hgrants, -, hserves, -⟩ := hembed hcall
      exact ⟨hgrants, hserves⟩
    · obtain ⟨ctx, hprepare, hasks⟩ := exists_mem_route_iff.1 ⟨cache, digest, auditId, trial, hcall⟩
      exact hinserts.of_asks hprepare hasks
    · obtain ⟨ctx, hprepare, hasks⟩ := exists_mem_routeStream_iff.1 ⟨trial, hcall⟩
      exact hinserts.of_asks hprepare hasks

end Policy

/-- An organisation that blocks a model, on a gateway whose one target serves any. -/
def blockedModel : Gateway :=
  (Gateway.new (fun _ ↦ none)
    { Config.default with
      orgs := KeyMap.empty.insert "acme"
        { name := none
          enabled := true
          allowedModels := none
          blockedModels := some ["text-embedding-3-large"]
          rateLimit := none
          tokenBudget := none
          guardrails := .default
          teams := .empty } }).registerProvider (.compatible .openai)

theorem embeds_blocked_model :
    ¬ blockedModel.PolicyHolds { RequestEnv.plain with vars := fun _ ↦ some "sk-openai" }
      (some { AuthContext.default with orgId := some "acme" }) none
      (.ofMessages "text-embedding-3-large" [.user "hello"])
      ⟨"text-embedding-3-large", .single "hello", none, none, none, .empty⟩ := by
  intro h
  have hcalls := congrArg List.length
    (h.refused (.inl (by decide)) fun _ ↦ .error (.network "connection refused"))
  exact absurd hcalls (by decide)

end Gateway

end Himadri
