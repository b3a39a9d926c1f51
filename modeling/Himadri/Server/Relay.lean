import Himadri.Gateway.CacheRuns
import Himadri.Provider.Exchange
import Himadri.Server.ErrorResponses

/-!
# A gateway behind a gateway

What the chat endpoint answers, read by the OpenAI-compatible client of another gateway, which may
have this one as its upstream.

A response arrives as it left. An error arrives as one of four, by its status, and stays what it is
through any further gateways (`relayed_of_reachable`).
-/

namespace Himadri

/-! ### Answers -/

/-- The body of an answer to a chat request without a stream. -/
def chatBody : Except ErrorResponse ChatCompletionResponse → Json
  | .ok response => response.json
  | .error e => e.body

/-- The answer to a chat request without a stream; `render` is what `Json` prints. -/
def chatAnswer (render : Json → String) (answered : Except ErrorResponse ChatCompletionResponse) :
    HttpAnswer :=
  let body := .ok (render (chatBody answered))
  match answered with
  | .ok _ => ⟨200, none, body⟩
  | .error e => ⟨e.status, e.retryAfter, body⟩

/-- What an error is to the gateway that reads it. -/
def GatewayError.relayed (e : GatewayError) : GatewayError :=
  if e.statusCode = 401 ∨ e.statusCode = 403 then
    .serviceUnavailable "upstream provider authentication failed"
  else if e.statusCode = 429 then .rateLimited (e.retryAfterSecs.getD 60)
  else if e.statusCode = 404 then .notFound ("model: " ++ e.display)
  else if e.statusCode = 400 then .badRequest e.display
  else .serviceUnavailable e.publicMessage

/-- The seconds to wait are of type `u64`. -/
def GatewayError.Fits (e : GatewayError) : Prop := ∀ n ∈ e.retryAfterSecs, n < UInt64.size

namespace GatewayError

variable {e : GatewayError}

theorem statusCode_cases (e : GatewayError) : e.statusCode = 400 ∨ e.statusCode = 401 ∨
    e.statusCode = 403 ∨ e.statusCode = 404 ∨ e.statusCode = 429 ∨ e.statusCode = 500 ∨
      e.statusCode = 503 := by
  rcases e with _ | _ | _ | _ | _ | _ | _ | _ | _ | _ | _ | _ <;> simp [statusCode]

/-- Behind the first gateway an error keeps its status and how long to wait. -/
theorem relayed_relayed (e : GatewayError) :
    e.relayed.relayed.statusCode = e.relayed.statusCode ∧
      e.relayed.relayed.retryAfterSecs = e.relayed.retryAfterSecs := by
  rcases e with _ | _ | _ | _ | _ | _ | _ | _ | _ | _ | _ | _ <;> exact ⟨rfl, rfl⟩

theorem iterate_relayed (e : GatewayError) (n : ℕ) :
    (relayed^[n + 1] e).statusCode = e.relayed.statusCode ∧
      (relayed^[n + 1] e).retryAfterSecs = e.relayed.retryAfterSecs := by
  induction n with
  | zero => exact ⟨rfl, rfl⟩
  | succ n ih =>
    rw [Function.iterate_succ_apply', Function.iterate_succ_apply'] at *
    obtain ⟨hstatus, hsecs⟩ := relayed_relayed (relayed^[n] e)
    exact ⟨hstatus.trans ih.1, hsecs.trans ih.2⟩

end GatewayError

section Errors

variable {text : BodyText} {render : Json → String} {e : GatewayError}

/-- The words of an error are found where the client looks for them. -/
theorem message_chatAnswer
    (hread : text.fromStr (render (errorToResponse e).body) = .ok (errorToResponse e).body) :
    (chatAnswer render (.error (errorToResponse e))).message text =
      if 500 ≤ e.statusCode ∧ e.statusCode < 600 then e.publicMessage else e.display := by
  show ((text.fromStr (render (errorToResponse e).body)).toOption.bind
    HttpAnswer.extractMessage).getD (render (errorToResponse e).body) = _
  rw [hread]
  rfl

/-- How long to wait is read as it was written. -/
theorem retryAfterSecs_chatAnswer (hfits : e.Fits) :
    (chatAnswer render (.error (errorToResponse e))).retryAfterSecs = e.retryAfterSecs.getD 60 := by
  show ((e.retryAfterSecs.map toString).bind fun v ↦ parseU64 (Text.trim v)).getD 60 = _
  rcases hsecs : e.retryAfterSecs with - | n
  · rfl
  · rw [Option.map_some, Option.bind_some, Text.trim_toString, parseU64_toString (hfits n hsecs)]

theorem gatewayError_chatAnswer (hfits : e.Fits)
    (hread : text.fromStr (render (errorToResponse e).body) = .ok (errorToResponse e).body) :
    (HttpReply.answered (chatAnswer render (.error (errorToResponse e)))).gatewayError text =
      e.relayed := by
  have hstatus : (chatAnswer render (.error (errorToResponse e))).status = e.statusCode := rfl
  rw [HttpReply.gatewayError, GatewayError.relayed, hstatus, message_chatAnswer hread,
    retryAfterSecs_chatAnswer hfits]
  rcases e.statusCode_cases with h | h | h | h | h | h | h <;> simp [h]

theorem fails_chatAnswer :
    (HttpReply.answered (chatAnswer render (.error (errorToResponse e)))).Fails := by
  show (chatAnswer render (.error (errorToResponse e))).isSuccess = false
  have hstatus : (chatAnswer render (.error (errorToResponse e))).status = e.statusCode := rfl
  rw [HttpAnswer.isSuccess, hstatus]
  rcases e.statusCode_cases with h | h | h | h | h | h | h <;> simp [h]

/-- Of the statuses of a gateway, three let another gateway try elsewhere. -/
theorem unavailable_chatAnswer :
    (HttpReply.answered (chatAnswer render (.error (errorToResponse e)))).Unavailable ↔
      e.statusCode ∈ [429, 500, 503] := by
  show e.statusCode ∈ [429, 500, 502, 503, 504, 529] ↔ _
  rcases e.statusCode_cases with h | h | h | h | h | h | h <;> simp [h]

end Errors

/-! ### Responses -/

theorem ChatCompletionResponse.Regular.redact {r : ChatCompletionResponse} (h : r.Regular)
    (redacted : String) : (redactResponseText r redacted).Regular := by
  refine ⟨⟨h.created, fun c hc ↦ ?_, h.usage⟩, h.object, fun c hc ↦ ?_⟩
  · obtain ⟨c, hmem, rfl⟩ := List.mem_map.1 hc
    exact h.indices c hmem
  · obtain ⟨c, hmem, rfl⟩ := List.mem_map.1 hc
    exact h.calls c hmem

/-- A call returns and stores regular responses. -/
structure RouteRun.Regular (run : RouteRun) : Prop where
  result : ∀ r, run.result = .ok r → r.Regular
  insert : ∀ entry ∈ run.insert, entry.2.Regular

theorem RouteRun.Regular.of_error {run : RouteRun} {e : GatewayError}
    (hresult : run.result = .error e) (hinsert : run.insert = none) : run.Regular := by
  constructor
  · intro r hr
    rw [hresult] at hr
    cases hr
  · intro entry hentry
    rw [hinsert] at hentry
    cases hentry

namespace Gateway

variable {g : Gateway} {env : RouteEnv} {request : ChatCompletionRequest}
  {auth : Option AuthContext}

theorem regular_conclude {ctx : PluginContext} {answer : Answer} {actions : List String}
    (h : ∀ r, answer.result = .ok r → r.Regular) :
    (conclude env request auth ctx answer actions).Regular := by
  rw [conclude]
  rcases hresult : answer.result with e | response
  · exact .of_error rfl rfl
  · refine ⟨fun r hr ↦ ?_, fun entry hentry ↦ ?_⟩
    · obtain rfl := Except.ok.inj hr
      exact h response hresult
    · obtain ⟨key, -, rfl⟩ := Option.map_eq_some_iff.1 hentry
      exact h response hresult

theorem regular_finish {ctx : PluginContext} {answer : Answer}
    (h : ∀ r, answer.result = .ok r → r.Regular) :
    (finish env request auth ctx answer).Regular := by
  unfold finish
  dsimp only
  split
  · exact regular_conclude h
  · next response content hresponse =>
    have hresult : answer.result = .ok response := by
      rcases hanswer : answer.result with e | r
      · rw [hanswer] at hresponse
        cases hresponse
      · rw [hanswer] at hresponse
        obtain ⟨text, -, heq⟩ := Option.map_eq_some_iff.1
          (show (extractResponseText r).map (r, ·) = some (response, content) from hresponse)
        rw [(Prod.mk.inj heq).1]
    split
    · exact regular_conclude h
    · exact .of_error rfl rfl
    · refine ⟨fun r hr ↦ ?_, fun _ hentry ↦ by cases hentry⟩
      obtain rfl := Except.ok.inj hr
      exact (h response hresult).redact _
    · exact regular_conclude h

/-- A target that gave a response was asked for it. -/
theorem result_of_tryTarget {α : Type*} {vars : String → Option String} {target : Target}
    {trial : Trial α} {a : α} (h : (g.tryTarget vars target trial).1 = .ok a) :
    trial.result = .ok a := by
  rw [tryTarget] at h
  split at h
  · rw [outcome] at h
    split at h
    · cases h
    · split at h
      · cases h
      · rcases hresult : trial.result with e | b
        · rw [hresult] at h
          cases h
        · rw [hresult] at h
          exact congrArg Except.ok (Except.ok.inj h)
  · cases h

/-- Where the attempts give regular responses, and so does the cache, a call does. -/
theorem regular_route {remoteIp : Option String}
    (hcache : ∀ look ∈ env.cache, ∀ key r, look key = some r → r.Regular)
    (htrial : ∀ i r, (env.trial i).result = .ok r → r.Regular) :
    (g.route env request auth remoteIp).Regular := by
  rw [route]
  split
  · exact .of_error rfl rfl
  · next ctx _ =>
    split
    · exact .of_error rfl rfl
    · next answer hanswer =>
      refine regular_finish fun r hr ↦ ?_
      rcases hcached : cachedResponse env ctx.request auth with - | response
      · rw [answer_of_miss hcached] at hanswer
        obtain ⟨ordered, hselect, e, he, rfl⟩ := fetch_eq_ok.1 hanswer
        obtain ⟨e', i, target, he', -, -, -, hresult⟩ :=
          g.exists_failover_end env.vars _ env.trial (selectTargets_ne_nil hselect) 0
        obtain rfl := Option.some.inj (he.symm.trans he')
        rcases hend : e.result with err | r'
        · rw [hend] at hr
          cases hr
        · rw [hend] at hr
          obtain rfl := Except.ok.inj hr
          exact htrial i r' (result_of_tryTarget (hresult.symm.trans hend))
      · rw [answer_of_hit hcached] at hanswer
        obtain rfl := Except.ok.inj hanswer
        obtain rfl := Except.ok.inj hr
        obtain ⟨key, -, hlook⟩ := Option.bind_eq_some_iff.1 hcached
        obtain ⟨look, hmem, hfound⟩ := Option.bind_eq_some_iff.1 hlook
        exact hcache look hmem key response hfound

end Gateway

/-- The attempts end as clients make them end of replies. -/
def RouteCall.FromReplies (c : RouteCall) : Prop :=
  ∀ i, ∃ (text : BodyText) (client : ProviderClient) (env : ProviderEnv) (model : String)
    (reply : HttpReply), env.now < UInt64.size ∧
      client.completed text env model reply = .ok (c.trial i).result

/-- The same of what happens to the cache. -/
def CacheLabel.FromReplies : CacheLabel → Prop
  | .call c => c.FromReplies
  | .evict _ => True

section Runs

variable {ttl : ℕ} {digest : CacheDocument → String} {s : CacheRun} {c : RouteCall}

/-- What is in the cache is regular. -/
def CacheRun.Regular (s : CacheRun) : Prop := s.cache.All (·.response.Regular)

theorem RouteCall.regular_run (hs : s.Regular) (hc : c.FromReplies) :
    (c.run ttl digest s.cache).Regular := by
  refine Gateway.regular_route (fun look hlook key r hr ↦ ?_) fun i r hr ↦ ?_
  · obtain rfl := Option.some.inj hlook
    obtain ⟨stored, hget, rfl⟩ := Option.map_eq_some_iff.1 hr
    exact hs.get hget
  · obtain ⟨text, client, env, model, reply, hnow, hmade⟩ := hc i
    exact ProviderClient.regular_completed hnow
      (hmade.trans (congrArg Except.ok (show (c.trial i).result = .ok r from hr)))

namespace CacheRun

theorem regular_after (hs : s.Regular) (hc : c.FromReplies) : (s.after ttl digest c).Regular := by
  rw [after]
  split
  · exact hs
  · dsimp only
    split
    · exact hs
    · next key response hinsert =>
      exact ExpiringMap.All.insert hs
        ((RouteCall.regular_run hs hc).insert (key, response) hinsert)

theorem regular_of_reachable
    (h : ((cacheRuns ttl digest).guard fun _ l ↦ l.FromReplies).Reachable s) : s.Regular := by
  have hregular : ((cacheRuns ttl digest).guard fun _ l ↦ l.FromReplies).Invariant Regular := by
    constructor
    · rintro s rfl
      exact fun k v t hentry ↦ by cases hentry
    · rintro s (c | key) s' hs ⟨hstep, hok⟩
      · obtain ⟨-, rfl⟩ := step?_call hstep
        exact regular_after hs hok
      · obtain rfl := Option.some.inj hstep
        exact ExpiringMap.All.evict hs
  exact hregular.of_reachable h

end CacheRun

/-- **A chat call is relayed as it ended.** In every run of calls through one cache, whichever
vendors the responses come from: a response is read by another gateway as it was answered, from the
cache or not, redacted or not; an error is read as what `relayed` says, which is tried elsewhere
exactly where it was a 429, a 500 or a 503, and which keeps its status and how long to wait
through any number of further gateways. -/
theorem relayed_of_reachable
    (h : ((cacheRuns ttl digest).guard fun _ l ↦ l.FromReplies).Reachable s) (hc : c.FromReplies)
    {render : Json → String} {text : BodyText}
    (hfits : ∀ e, (c.run ttl digest s.cache).result = .error e → e.Fits)
    (hread : text.fromStr (render (chatBody (answerTo (c.run ttl digest s.cache).result))) =
      .ok (chatBody (answerTo (c.run ttl digest s.cache).result)))
    (config : OpenAiCompatibleConfig) (env : ProviderEnv) (model : String) :
    let read := (ProviderClient.compatible config).completed text env model
      (.answered (chatAnswer render (answerTo (c.run ttl digest s.cache).result)))
    (∀ r, (c.run ttl digest s.cache).result = .ok r → read = .ok (.ok r)) ∧
      ∀ e, (c.run ttl digest s.cache).result = .error e →
        (∃ err, read = .ok (.error err) ∧ err.toGatewayError = e.relayed ∧
          (err.retryable = true ↔ e.statusCode ∈ [429, 500, 503])) ∧
        ∀ n, (GatewayError.relayed^[n + 1] e).statusCode = e.relayed.statusCode ∧
          (GatewayError.relayed^[n + 1] e).retryAfterSecs = e.relayed.retryAfterSecs := by
  intro read
  constructor
  · intro r hr
    have hregular := (RouteCall.regular_run (CacheRun.regular_of_reachable h) hc).result r hr
    rw [hr] at hread
    have hjson : (chatAnswer render (.ok r)).json text = .ok r.json := by
      show (text.fromStr (render r.json)).mapError _ = _
      rw [show text.fromStr (render r.json) = .ok r.json from hread]
      rfl
    have hsuccess : (chatAnswer render (.ok r)).isSuccess = true := rfl
    show (ProviderClient.compatible config).completed text env model
      (.answered (chatAnswer render (answerTo (c.run ttl digest s.cache).result))) = _
    rw [hr, show answerTo (.ok r) = .ok r from rfl, ProviderClient.completed, if_pos hsuccess,
      hjson]
    exact congrArg Except.ok (Compatible.parseResponse_json hregular text.toJsonText)
  · intro e he
    refine ⟨?_, GatewayError.iterate_relayed e⟩
    have hbody : text.fromStr (render (errorToResponse e).body) = .ok (errorToResponse e).body := by
      rw [he] at hread
      exact hread
    have hanswer : answerTo (c.run ttl digest s.cache).result = .error (errorToResponse e) := by
      rw [he]
      rfl
    obtain ⟨err, herr, htold⟩ := ProviderClient.toGatewayError_completed text
      (.compatible config) env model fails_chatAnswer
    refine ⟨err, ?_, htold.trans (gatewayError_chatAnswer (hfits e he) hbody), ?_⟩
    · show (ProviderClient.compatible config).completed text env model
        (.answered (chatAnswer render (answerTo (c.run ttl digest s.cache).result))) = _
      rw [hanswer, herr]
    · have hiff := ProviderClient.retryable_completed_iff herr
      rw [or_iff_left fun hunread ↦ ?_, unavailable_chatAnswer] at hiff
      · rw [← hiff]
        refine ⟨fun hretryable ↦ ⟨err, rfl, hretryable⟩, ?_⟩
        rintro ⟨err', heq, hretryable⟩
        exact Except.error.inj heq ▸ hretryable
      · have hfails : (HttpReply.answered (chatAnswer render (.error (errorToResponse e)))).Fails :=
          fails_chatAnswer
        rw [HttpReply.Fails, hunread.1] at hfails
        cases hfails

end Runs

section Cached

/-- A body that reads as the value. -/
def BodyText.ofJson (v : Json) : BodyText := ⟨⟨fun _ ↦ .ok v, fun _ ↦ ""⟩, fun _ ↦ ""⟩

/-- A greeting. -/
def greeting : ChatCompletionResponse := .ofText "response" "gpt-4o" "hello"

theorem regular_greeting : greeting.Regular := by
  refine ⟨⟨by decide, fun c hc ↦ ?_, fun u hu ↦ by cases hu⟩, rfl, fun c hc ↦ ?_⟩
  · obtain rfl := List.mem_singleton.1 hc
    exact zero_lt_u32
  · obtain rfl := List.mem_singleton.1 hc
    exact fun h ↦ by cases h

/-- A call that is answered with the greeting. -/
def greetedAt (now : ℕ) : RouteCall where
  gateway := CacheRun.twoRoles
  env := { RequestEnv.plain with vars := fun _ ↦ some "sk-openai" }
  auditId := "audit"
  trial := fun _ ↦ ⟨true, .ok greeting, 1⟩
  request := .ofMessages "gpt-4o" [.user "hello"]
  auth := some { AuthContext.default with scope := .apiKey, roles := ["analyst"] }
  remoteIp := none
  now

theorem fromReplies_greetedAt (now : ℕ) : (greetedAt now).FromReplies := by
  intro i
  refine ⟨.ofJson greeting.json, .compatible .openai, ⟨0, fun _ ↦ "", fun _ ↦ ""⟩, "gpt-4o",
    .answered ⟨200, none, .ok ""⟩, by decide, ?_⟩
  exact congrArg Except.ok (Compatible.parseResponse_json regular_greeting
    (BodyText.ofJson greeting.json).toJsonText)

/-- The same call again is answered from the cache, and relayed. -/
theorem relayed_from_cache : ∃ s,
    ((cacheRuns 10 (·.model)).guard fun _ l ↦ l.FromReplies).Reachable s ∧
      ((greetedAt 1).hit 10 (·.model) s.cache).isSome ∧
      (ProviderClient.compatible .openai).completed (.ofJson greeting.json)
        ⟨0, fun _ ↦ "", fun _ ↦ ""⟩ "gpt-4o"
        (.answered (chatAnswer (fun _ ↦ "")
          (answerTo ((greetedAt 1).run 10 (·.model) s.cache).result))) = .ok (.ok greeting) := by
  obtain ⟨s, hs, hhit, hresult⟩ : ∃ s,
      ((cacheRuns 10 (·.model)).guard fun _ l ↦ l.FromReplies).Reachable s ∧
        ((greetedAt 1).hit 10 (·.model) s.cache).isSome ∧
        ((greetedAt 1).run 10 (·.model) s.cache).result = .ok greeting :=
    ⟨_, .step (l := .call (greetedAt 0)) (.init rfl) ⟨rfl, fromReplies_greetedAt 0⟩, rfl, rfl⟩
  refine ⟨s, hs, hhit, (relayed_of_reachable hs (fromReplies_greetedAt 1) (fun e he ↦ ?_) ?_
    .openai ⟨0, fun _ ↦ "", fun _ ↦ ""⟩ "gpt-4o").1 greeting hresult⟩
  · rw [hresult] at he
    cases he
  · rw [hresult]
    rfl

end Cached

end Himadri
