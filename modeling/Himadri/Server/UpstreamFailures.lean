import Himadri.Provider.Exchange
import Himadri.Server.ErrorResponses

/-!
# What an upstream's failure comes to

The chat paths with the answers of upstreams in place of what their clients make of them. Where the
failover loop ends and what the client is told there are read off the answers alone
(`failure_by_reply`): nothing in that depends on which vendors the answers are from.
-/

namespace Himadri

namespace Gateway

/-- The target is not asked: its breaker denies, it has no client, or its key is not there. -/
def Unasked (g : Gateway) (vars : String → Option String) (target : Target) (admitted : Bool) :
    Prop :=
  admitted = false ∨ g.providers.get (routingKey target) = none ∨
    ∃ e, g.getApiKey vars target = .error e

/-- The loop over the targets ends at position `i`, behind targets that were not asked or whose
reply lets it go on. -/
structure EndsAt (g : Gateway) (vars : String → Option String) (ordered : List Target)
    (admitted : ℕ → Bool) (letsGoOn : ℕ → Prop) (i : ℕ) (target : Target) : Prop where
  target_eq : ordered[i]? = some target
  passed : ∀ k < i, ∃ t, ordered[k]? = some t ∧ (g.Unasked vars t (admitted k) ∨ letsGoOn k)
  stops : i + 1 = ordered.length ∨ ¬(g.Unasked vars target (admitted i) ∨ letsGoOn i)

section Loop

variable {α β : Type} {g : Gateway} {vars : String → Option String} {ordered : List Target}
  {trial : ℕ → Trial α} {letsGoOn : ℕ → Prop}

theorem goesOn_iff {target : Target} {k : ℕ}
    (h : (∃ e, (trial k).result = .error e ∧ e.retryable = true) ↔ letsGoOn k) :
    g.GoesOn vars target (trial k) ↔ g.Unasked vars target (trial k).admitted ∨ letsGoOn k := by
  rw [GoesOn, Unasked, h, or_assoc, or_assoc]

/-- Where the loop ends, by what lets it go on; a target that was asked there ends it with its
result. -/
theorem exists_endsAt (op : Target → ProviderClient → String → β) (hne : ordered ≠ [])
    (h : ∀ k, (∃ e, (trial k).result = .error e ∧ e.retryable = true) ↔ letsGoOn k) :
    ∃ e i target, g.failover vars op ordered trial 0 = some e ∧
      g.EndsAt vars ordered (fun k ↦ (trial k).admitted) letsGoOn i target ∧
      (¬g.Unasked vars target (trial i).admitted →
        e.result = (trial i).result.mapError .provider) := by
  obtain ⟨e, i, target, he, htarget, hpassed, hstop, hresult⟩ :=
    g.exists_failover_end vars op trial hne 0
  refine ⟨e, i, target, he, ⟨htarget, fun k hk ↦ ?_, ?_⟩, fun hasked ↦ ?_⟩
  · obtain ⟨t, ht, hgoes⟩ := hpassed k hk
    exact ⟨t, ht, (goesOn_iff (h k)).1 hgoes⟩
  · exact hstop.imp_right fun hends hgoes ↦ hends ((goesOn_iff (h i)).2 hgoes)
  · rw [Unasked, not_or, not_or, Bool.not_eq_false] at hasked
    obtain ⟨hadmitted, hclient, hkey⟩ := hasked
    obtain ⟨client, hclient⟩ := Option.ne_none_iff_exists'.1 hclient
    rw [hresult, tryTarget, if_pos hadmitted, outcome, hclient]
    rcases hget : g.getApiKey vars target with e | key
    · exact absurd ⟨e, hget⟩ hkey
    · dsimp only
      rcases (trial i).result with e | a
      · rfl
      · rfl

end Loop

variable {g : Gateway} {auth : Option AuthContext} {request : ChatCompletionRequest}
  {remoteIp : Option String} {ctx : PluginContext} {ordered : List Target}

/-- The operation of the loop on both paths. -/
def ask (request : ChatCompletionRequest) (t : Target) (client : ProviderClient) (key : String) :
    ProviderCall :=
  ⟨t, client, request, key⟩

theorem route_of_error {env : RouteEnv}
    (hctx : g.prepareRequest env.toRequestEnv request auth remoteIp = .ok ctx)
    (hmiss : cachedResponse env ctx.request auth = none)
    (hselect : g.selectTargets env.selection ctx.request auth = .ok ordered)
    {e : FailoverEnd ChatCompletionResponse ProviderCall}
    (he : g.failover env.vars (ask ctx.request) ordered env.trial 0 = some e) {err : ProviderError}
    (herr : e.result = .error (.provider err)) :
    (g.route env request auth remoteIp).result = .error err.toGatewayError := by
  have hfetch : g.fetch env ctx.request auth =
      .ok ⟨e.target, e.result.mapError AttemptError.flatten, e.latencyMs, e.calls⟩ :=
    fetch_eq_ok.2 ⟨ordered, hselect, e, he, rfl⟩
  rw [route, hctx]
  dsimp only
  rw [answer_of_miss hmiss, hfetch, herr]
  rfl

theorem routeStream_of_error {env : StreamEnv}
    (hctx : g.prepareRequest env.toRequestEnv request auth remoteIp = .ok ctx)
    (hselect : g.selectTargets env.selection ctx.request auth = .ok ordered)
    {e : FailoverEnd ProviderStream ProviderCall}
    (he : g.failover env.vars (ask ctx.request) ordered env.trial 0 = some e) {err : ProviderError}
    (herr : e.result = .error (.provider err)) :
    (g.routeStream env auth request remoteIp).result = .error err.toGatewayError := by
  have hopen : g.failover env.vars (fun t client key ↦ ProviderCall.mk t client ctx.request key)
      ordered env.trial 0 = some e := he
  rw [routeStream, hctx]
  dsimp only
  rw [openStream, hselect]
  dsimp only
  rw [hopen]
  dsimp only
  rw [herr]
  rfl

/-- **What a failed answer comes to is read off the answer.** On both chat paths, with the results
of the attempts whatever some clients make of the replies: the loop goes on behind a target that is
not asked, behind no answer and behind those that blame neither the request nor the key, without a
stream also behind a success that is no JSON, and behind nothing else; and where it ends with an
answer that is no success, or with none, the client gets the response that this reply has. -/
theorem failure_by_reply {env : RouteEnv} {stream : StreamEnv}
    (hctx : g.prepareRequest env.toRequestEnv request auth remoteIp = .ok ctx)
    (hmiss : cachedResponse env ctx.request auth = none)
    (hselect : g.selectTargets env.selection ctx.request auth = .ok ordered)
    (hstream : stream.toRequestEnv = env.toRequestEnv) (text : BodyText)
    (reply : ℕ → HttpReply) (client : ℕ → ProviderClient) (read : ℕ → ProviderEnv)
    (items : HttpAnswer → ProviderStream)
    (hcomplete : ∀ i, (client i).completed text (read i) ctx.request.model (reply i) =
      .ok (env.trial i).result)
    (hopen : ∀ i, (stream.trial i).result = (client i).opened text items (reply i)) :
    (∃ i target, g.EndsAt env.vars ordered (fun k ↦ (env.trial k).admitted)
        (fun k ↦ (reply k).Unavailable ∨ (reply k).Unreadable text) i target ∧
      (¬g.Unasked env.vars target (env.trial i).admitted → (reply i).Fails →
        answerTo (g.route env request auth remoteIp).result =
          .error (errorToResponse ((reply i).gatewayError text)))) ∧
    ∃ i target, g.EndsAt env.vars ordered (fun k ↦ (stream.trial k).admitted)
        (fun k ↦ (reply k).Unavailable) i target ∧
      (¬g.Unasked env.vars target (stream.trial i).admitted → (reply i).Fails →
        answerTo (g.routeStream stream auth request remoteIp).result =
          .error (errorToResponse ((reply i).gatewayError text))) := by
  have hne := selectTargets_ne_nil hselect
  constructor
  · obtain ⟨e, i, target, he, hends, hresult⟩ :=
      exists_endsAt (ask ctx.request) hne fun k ↦
        ProviderClient.retryable_completed_iff (hcomplete k)
    refine ⟨i, target, hends, fun hasked hfails ↦ ?_⟩
    obtain ⟨err, herr, htold⟩ :=
      ProviderClient.toGatewayError_completed text (client i) (read i) ctx.request.model hfails
    have hended : e.result = .error (.provider err) := by
      rw [hresult hasked, ← Except.ok.inj (herr.symm.trans (hcomplete i))]
      rfl
    rw [route_of_error hctx hmiss hselect he hended, htold]
    rfl
  · obtain ⟨requestEnv, trial⟩ := stream
    obtain rfl : requestEnv = env.toRequestEnv := hstream
    have hgoes (k : ℕ) : (∃ e, (trial k).result = .error e ∧ e.retryable = true) ↔
        (reply k).Unavailable := by
      rw [show (trial k).result = _ from hopen k]
      exact ProviderClient.retryable_opened_iff items
    obtain ⟨e, i, target, he, hends, hresult⟩ :=
      exists_endsAt (ask ctx.request) hne hgoes
    refine ⟨i, target, hends, fun hasked hfails ↦ ?_⟩
    obtain ⟨err, herr, htold⟩ :=
      ProviderClient.toGatewayError_opened text (client i) items hfails
    have hended : e.result = .error (.provider err) := by
      rw [hresult hasked, show (trial i).result = _ from hopen i, herr]
      rfl
    rw [routeStream_of_error hctx hselect he hended, htold]
    rfl

/-- An answer without a body. -/
def forbidden : HttpReply := .answered ⟨403, none, .ok ""⟩

/-- No text is read. -/
def unread : BodyText :=
  ⟨⟨fun _ ↦ .error "EOF while parsing a value at line 1 column 0", fun _ ↦ ""⟩,
    fun _ ↦ "error decoding response body"⟩

/-- The one upstream of a gateway, read by Gemini's client, answers 403. -/
theorem failure_by_reply_forbidden : ∃ i target,
    (oneModel.registerProvider (.compatible .openai)).EndsAt RouteEnv.plain.vars
        [{ Target.ofProvider "openai" with models := some ["gpt-4o"] }] (fun _ ↦ true)
        (fun _ ↦ forbidden.Unavailable ∨ forbidden.Unreadable unread) i target ∧
      (¬(oneModel.registerProvider (.compatible .openai)).Unasked RouteEnv.plain.vars target true →
        answerTo ((oneModel.registerProvider (.compatible .openai)).route
          { RouteEnv.plain with trial := fun _ ↦ ⟨true, .error (.auth ""), 1⟩ }
          (.ofMessages "gpt-4o" [.user "hello"]) none none).result =
            .error (errorToResponse (forbidden.gatewayError unread))) := by
  let env : RouteEnv := { RouteEnv.plain with trial := fun _ ↦ ⟨true, .error (.auth ""), 1⟩ }
  let stream : StreamEnv := ⟨.plain, fun _ ↦ ⟨true, .error (.auth ""), 1⟩⟩
  have hctx : (oneModel.registerProvider (.compatible .openai)).prepareRequest env.toRequestEnv
      (.ofMessages "gpt-4o" [.user "hello"]) none none =
        .ok (freshContext env.toRequestEnv (.ofMessages "gpt-4o" [.user "hello"]) none none) := rfl
  have hopen : ∀ i, (stream.trial i).result =
      (ProviderClient.gemini "").opened unread (fun _ ↦ []) forbidden := fun _ ↦ rfl
  obtain ⟨i, target, hends, htold⟩ :=
    (failure_by_reply hctx (cachedResponse_of_cache_none rfl) rfl rfl unread (fun _ ↦ forbidden)
      (fun _ ↦ .gemini "") (fun _ ↦ ⟨0, fun _ ↦ "", fun _ ↦ ""⟩) (fun _ ↦ []) (fun _ ↦ rfl)
      hopen).1
  exact ⟨i, target, hends, fun hasked ↦ htold hasked rfl⟩

end Gateway

end Himadri
