import Himadri.Gateway.Statuses
import Himadri.Server.Streaming

/-!
# What an error response tells

`error_to_response`, and what a client learns of an upstream that fails. An upstream's own words
reach the client where it blames the request, and nowhere else: what it says of an authentication
that failed, of itself being down, or garbled, is for the log. `ProviderError.masked` is what is
left of an error without such words. Two upstreams that answer alike but for them
(`Upstream.Alike`) are asked the same requests and give the client the same answers, on all three
paths, whatever fails over to what (`words_stay_inside`).
-/

namespace Himadri

/-- The response to a failed call: its status, its body, and its `Retry-After`. -/
structure ErrorResponse where
  status : ℕ
  body : Json
  retryAfter : Option String

/-- What the body of a server error says in place of the error. -/
def GatewayError.publicMessage : GatewayError → String
  | .circuitOpen _ | .serviceUnavailable _ => "upstream provider unavailable"
  | _ => "internal server error"

/-- How long the client is told to wait. -/
def GatewayError.retryAfterSecs : GatewayError → Option ℕ
  | .rateLimited retryAfterSecs => some retryAfterSecs
  | .quotaExceeded _ => some 60
  | _ => none

/-- `error_to_response`. -/
def errorToResponse (e : GatewayError) : ErrorResponse where
  status := e.statusCode
  body :=
    let message := if 500 ≤ e.statusCode ∧ e.statusCode < 600 then e.publicMessage else e.display
    .object [("error", .object [("message", .string message), ("type", .string "gateway_error")])]
  retryAfter := e.retryAfterSecs.map toString

/-- The body of a server error is one of two, whatever the error says. -/
theorem errorToResponse_of_server_error {e : GatewayError} (h : 500 ≤ e.statusCode) :
    ∃ message ∈ ["upstream provider unavailable", "internal server error"],
      (errorToResponse e).body = .object
        [("error", .object [("message", .string message), ("type", .string "gateway_error")])] := by
  have hlt : e.statusCode < 600 := by
    rcases e with _ | _ | _ | _ | _ | _ | _ | _ | _ | _ | _ | _ <;> simp [GatewayError.statusCode]
  refine ⟨e.publicMessage, ?_, ?_⟩
  · rcases e with _ | _ | _ | _ | _ | _ | _ | _ | _ | _ | _ | _ <;>
      simp [GatewayError.publicMessage]
  · rw [errorToResponse]
    dsimp only
    rw [if_pos ⟨h, hlt⟩]

/-- What a handler makes of a call's result. -/
def answerTo {α : Type*} (result : Except GatewayError α) : Except ErrorResponse α :=
  result.mapError errorToResponse

/-! ### Errors without their words -/

/-- The statuses of an upstream that blames the request. -/
def blamesRequest (status : ℕ) : Bool :=
  400 ≤ status && status < 500 && !(status == 401 || status == 403 || status == 429)

/-- An error without the words that stay inside. -/
def ProviderError.masked : ProviderError → ProviderError
  | .auth _ => .auth ""
  | .api status message => .api status (if blamesRequest status then message else "")
  | .network _ => .network ""
  | .parse _ => .parse ""
  | .internal _ => .internal ""
  | e => e

/-- The same of what an attempt fails with. -/
def AttemptError.masked : AttemptError → AttemptError
  | .provider e => .provider e.masked
  | e => e

/-- A result without the words of its error, and of its value what `f` tells. -/
def maskedBy {α γ : Type*} (f : α → γ) (result : Except ProviderError α) :
    Except ProviderError γ :=
  (result.mapError ProviderError.masked).map f

/-- The same of an attempt. -/
def maskedAttempt {α γ : Type*} (f : α → γ) (result : Except AttemptError α) :
    Except AttemptError γ :=
  (result.mapError AttemptError.masked).map f

theorem ProviderError.retryable_masked (e : ProviderError) : e.masked.retryable = e.retryable := by
  rcases e with _ | _ | _ | _ | ⟨status, message⟩ | _ | _ | _ | _ | _ | _ | _ <;> rfl

/-- The client is told the same of an error without its words. -/
theorem ProviderError.errorToResponse_masked (e : ProviderError) :
    errorToResponse e.masked.toGatewayError = errorToResponse e.toGatewayError := by
  rcases e with _ | _ | _ | _ | ⟨status, message⟩ | _ | _ | _ | _ | _ | _ | _
  case api =>
    rw [masked]
    by_cases hblames : blamesRequest status
    · rw [if_pos hblames]
    · rw [if_neg hblames, toGatewayError, toGatewayError]
      by_cases hauth : (decide (status = 401) || decide (status = 403)) = true
      · rw [if_pos hauth, if_pos hauth]
      · rw [if_neg hauth, if_neg hauth]
        by_cases hrate : status = 429
        · rw [if_pos hrate, if_pos hrate]
        · have hclient : ¬(decide (400 ≤ status) && decide (status < 500)) = true := fun h ↦ by
            refine hblames ?_
            rw [Bool.or_eq_true, decide_eq_true_iff, decide_eq_true_iff, not_or] at hauth
            rw [blamesRequest, h, Bool.true_and, Bool.not_eq_true', Bool.or_eq_false_iff,
              Bool.or_eq_false_iff, beq_eq_false_iff_ne, beq_eq_false_iff_ne, beq_eq_false_iff_ne]
            exact ⟨⟨hauth.1, hauth.2⟩, hrate⟩
          rw [if_neg hrate, if_neg hrate, if_neg hclient, if_neg hclient]
          rfl
  all_goals rfl

/-- A result that differs in words alone ends the loop of `embed` where the other does. -/
theorem embedFallsBack_eq {α β γ : Type*} {f : α → γ} {f' : β → γ}
    {r : Except ProviderError α} {r' : Except ProviderError β}
    (h : maskedBy f r = maskedBy f' r') :
    embedFallsBack (r.map fun _ ↦ ()) = embedFallsBack (r'.map fun _ ↦ ()) := by
  rcases r with e | a <;> rcases r' with e' | a'
  · have hmasked : e.masked = e'.masked := Except.error.inj h
    have hunit (e : ProviderError) :
        embedFallsBack (Except.error (α := Unit) e.masked) = embedFallsBack (.error e) := by
      rcases e with _ | _ | _ | _ | ⟨status, message⟩ | _ | _ | _ | _ | _ | _ | _ <;> rfl
    show embedFallsBack (.error e) = embedFallsBack (.error e')
    rw [← hunit e, ← hunit e', hmasked]
  · cases h
  · cases h
  · rfl

/-! ### The failover loop -/

/-- A trial without the words of its error. -/
def Trial.maskedBy {α γ : Type*} (f : α → γ) (trial : Trial α) : Trial γ :=
  ⟨trial.admitted, Himadri.maskedBy f trial.result, trial.latencyMs⟩

/-- The end of the loop without the words of its error. -/
def FailoverEnd.maskedBy {α β γ : Type*} (f : α → γ) (e : FailoverEnd α β) : FailoverEnd γ β :=
  ⟨e.target, maskedAttempt f e.result, e.latencyMs, e.calls⟩

namespace Gateway

section Failover

variable {α β γ : Type*} {g : Gateway} {vars : String → Option String}
  {op : Target → ProviderClient → String → β} {f : α → γ}

theorem operation_maskedBy (target : Target) (trial : Trial α) :
    g.operation vars op target (trial.maskedBy f) = g.operation vars op target trial := rfl

theorem tryTarget_maskedBy (target : Target) (trial : Trial α) :
    g.tryTarget vars target (trial.maskedBy f) =
      (maskedAttempt f (g.tryTarget vars target trial).1, (g.tryTarget vars target trial).2) := by
  obtain ⟨admitted, result, latencyMs⟩ := trial
  simp only [tryTarget, outcome, Trial.maskedBy]
  rcases admitted with - | -
  · rfl
  · rcases g.providers.get (routingKey target) with - | client
    · rfl
    · rcases g.getApiKey vars target with e | key
      · rfl
      · rcases result with e | a
        · show (_, e.masked.retryable) = (_, e.retryable)
          rw [e.retryable_masked]
          rfl
        · rfl

/-- The loop over masked trials ends like the loop, masked. -/
theorem failover_maskedBy (ordered : List Target) (trial : ℕ → Trial α) (latencyMs : ℕ) :
    g.failover vars op ordered (fun i ↦ (trial i).maskedBy f) latencyMs =
      (g.failover vars op ordered trial latencyMs).map (·.maskedBy f) := by
  induction ordered generalizing trial latencyMs with
  | nil => rfl
  | cons t rest ih =>
    rw [failover, failover, operation_maskedBy, tryTarget_maskedBy]
    rcases (g.tryTarget vars t (trial 0)).2 with - | -
    · rfl
    · have hrest := ih (fun i ↦ trial (i + 1))
        (if (g.operation vars op t (trial 0)).isSome then (trial 0).latencyMs else latencyMs)
      simp only [if_true]
      rw [show ((trial 0).maskedBy f).latencyMs = (trial 0).latencyMs from rfl, hrest]
      rcases g.failover vars op rest (fun i ↦ trial (i + 1)) _ with - | e
      · rfl
      · rfl

end Failover

end Gateway

/-- What `route` and `route_stream` make of an attempt's error tells nothing of its words. -/
theorem AttemptError.errorToResponse_masked (e : AttemptError) :
    errorToResponse e.masked.flatten.toGatewayError = errorToResponse e.flatten.toGatewayError ∧
      errorToResponse e.masked.toGatewayError = errorToResponse e.toGatewayError := by
  rcases e with e | _ | _ | _ | _
  case provider =>
    exact ⟨ProviderError.errorToResponse_masked _, ProviderError.errorToResponse_masked _⟩
  all_goals exact ⟨rfl, rfl⟩

/-! ### The three paths -/

/-- What the upstreams answer on each path, by the position of the attempt. -/
structure Upstream where
  complete : ℕ → Trial ChatCompletionResponse
  stream : ℕ → Trial ProviderStream
  embed : ℕ → Except ProviderError EmbeddingResponse

/-- The two answer alike but for the words of their errors, those within a stream included. -/
structure Upstream.Alike (u u' : Upstream) : Prop where
  complete : ∀ i, (u.complete i).maskedBy id = (u'.complete i).maskedBy id
  stream : ∀ i, (u.stream i).maskedBy (List.map (maskedBy id)) =
    (u'.stream i).maskedBy (List.map (maskedBy id))
  embed : ∀ i, maskedBy id (u.embed i) = maskedBy id (u'.embed i)

/-- One request on each path: what is asked of the upstreams, and what the client gets. -/
structure Answers where
  chatCalls : List ProviderCall
  chat : Except ErrorResponse ChatCompletionResponse
  streamCalls : List ProviderCall
  /-- The events of the streamed body. -/
  events : Except ErrorResponse (List String)
  embedCalls : List EmbeddingCall
  embedding : Except ErrorResponse EmbeddingResponse

/-- The requests of a client, and when it polls the streamed body. -/
structure ClientRequests where
  env : RouteEnv
  auth : Option AuthContext
  remoteIp : Option String
  chat : ChatCompletionRequest
  embedding : EmbeddingRequest
  payload : StreamChunk → Except ProviderError String
  dropMs : ℕ
  polls : List StreamPoll

/-- The handlers, before these upstreams. -/
def Gateway.answers (g : Gateway) (client : ClientRequests) (u : Upstream) : Answers :=
  let run := g.route { client.env with trial := u.complete } client.chat client.auth client.remoteIp
  let stream :=
    g.routeStream ⟨client.env.toRequestEnv, u.stream⟩ client.auth client.chat client.remoteIp
  let embed := g.runEmbed client.embedding client.env.toRequestEnv client.auth u.embed
  { chatCalls := run.calls
    chat := answerTo run.result
    streamCalls := stream.calls
    events := (answerTo stream.result).map fun s ↦
      (SseBody.life client.payload client.dropMs client.polls ⟨some s, false⟩).events
    embedCalls := embed.calls
    embedding := answerTo embed.result }

/-! ### Streams without words -/

namespace SseBody

/-- The bodies have as much to send, and what they send next differs in words alone. -/
def Alike (body body' : SseBody) : Prop :=
  body.errored = body'.errored ∧
    body.inner.map (fun s ↦ s.inner.map (maskedBy id)) =
      body'.inner.map (fun s ↦ s.inner.map (maskedBy id))

variable {payload : StreamChunk → Except ProviderError String} {dropMs : ℕ}

variable (payload) in
/-- A poll of two such bodies sends the same event. -/
theorem Alike.poll {body body' : SseBody} (h : body.Alike body') (elapsedMs elapsedMs' : ℕ) :
    (body.poll payload elapsedMs).event = (body'.poll payload elapsedMs').event ∧
      (body.poll payload elapsedMs).body.Alike (body'.poll payload elapsedMs').body := by
  obtain ⟨inner, errored⟩ := body
  obtain ⟨inner', errored'⟩ := body'
  obtain ⟨herrored, hinner⟩ := h
  obtain rfl : errored = errored' := herrored
  rcases inner with - | stream <;> rcases inner' with - | stream'
  · exact ⟨rfl, rfl, rfl⟩
  · cases hinner
  · cases hinner
  · have hitems : stream.inner.map (maskedBy id) = stream'.inner.map (maskedBy id) :=
      Option.some.inj hinner
    rcases hs : stream.inner with - | ⟨item, rest⟩ <;>
      rcases hs' : stream'.inner with - | ⟨item', rest'⟩ <;> rw [hs, hs'] at hitems
    · obtain ⟨next, hpoll, -, -⟩ := pollNext_of_nil elapsedMs hs
      obtain ⟨next', hpoll', -, -⟩ := pollNext_of_nil elapsedMs' hs'
      simp only [SseBody.poll, hpoll, hpoll']
      exact ⟨rfl, rfl, rfl⟩
    · cases hitems
    · cases hitems
    · obtain ⟨next, hpoll, hnext, -⟩ := pollNext_of_cons elapsedMs hs
      obtain ⟨next', hpoll', hnext', -⟩ := pollNext_of_cons elapsedMs' hs'
      obtain ⟨hitem, hrest⟩ := List.cons.inj hitems
      have hlater (flag : Bool) : Alike ⟨some next, flag⟩ ⟨some next', flag⟩ := by
        refine ⟨rfl, congrArg some ?_⟩
        show next.inner.map _ = next'.inner.map _
        rw [hnext, hnext']
        exact hrest
      simp only [SseBody.poll, hpoll, hpoll']
      rcases errored with - | -
      · rcases item with e | chunk <;> rcases item' with e' | chunk'
        · exact ⟨rfl, hlater true⟩
        · cases hitem
        · cases hitem
        · obtain rfl : chunk = chunk' := Except.ok.inj hitem
          rcases hdata : Except.bind (Except.ok chunk : Except ProviderError StreamChunk) payload
            with e | data
          · exact ⟨rfl, hlater true⟩
          · exact ⟨rfl, hlater false⟩
      · exact ⟨rfl, rfl, rfl⟩

theorem Alike.events_life {body body' : SseBody} (h : body.Alike body') (polls : List StreamPoll) :
    (life payload dropMs polls body).events = (life payload dropMs polls body').events := by
  induction polls generalizing body body' with
  | nil => rfl
  | cons p polls ih =>
    rcases p with - | elapsedMs
    · exact ih h
    · obtain ⟨hevent, hbody⟩ := h.poll payload elapsedMs elapsedMs
      rw [life, life]
      dsimp only
      rw [hevent, ih hbody]

end SseBody

/-! ### Masked upstreams

On each path, upstreams without the words of their errors are asked the same and tell the same. -/

theorem ProviderError.masked_masked (e : ProviderError) : e.masked.masked = e.masked := by
  rcases e with _ | _ | _ | _ | ⟨status, message⟩ | _ | _ | _ | _ | _ | _ | _
  case api =>
    rw [masked, masked]
    by_cases hblames : blamesRequest status
    · rw [if_pos hblames, if_pos hblames]
    · rw [if_neg hblames, if_neg hblames]
  all_goals rfl

theorem maskedBy_maskedBy {α : Type*} (r : Except ProviderError α) :
    maskedBy id (maskedBy id r) = maskedBy id r := by
  rcases r with e | a
  · exact congrArg Except.error e.masked_masked
  · rfl

/-- What an answer tells a client. -/
def Answer.told (answer : Answer) : Except ErrorResponse ChatCompletionResponse :=
  answer.result.mapError fun e ↦ errorToResponse e.toGatewayError

/-- An answer, but for what its error says. -/
def Answer.view (answer : Answer) :
    Target × Except ErrorResponse ChatCompletionResponse × ℕ × List ProviderCall :=
  (answer.target, answer.told, answer.latencyMs, answer.calls)

/-- The upstreams of `route` without the words of their errors. -/
def RouteEnv.masked (env : RouteEnv) : RouteEnv :=
  { env with trial := fun i ↦ (env.trial i).maskedBy id }

/-- Those of `route_stream`. -/
def StreamEnv.masked (env : StreamEnv) : StreamEnv :=
  { env with trial := fun i ↦ (env.trial i).maskedBy (List.map (maskedBy id)) }

namespace Gateway

variable {g : Gateway} {auth : Option AuthContext} {remoteIp : Option String}

section Route

variable {env : RouteEnv} {request : ChatCompletionRequest}

theorem fetch_masked : (g.fetch env.masked request auth).map Answer.view =
    (g.fetch env request auth).map Answer.view := by
  rw [fetch, fetch]
  rcases hselect : g.selectTargets env.selection request auth with e | ordered
  · rw [show g.selectTargets env.masked.selection request auth = .error e from hselect]
  · rw [show g.selectTargets env.masked.selection request auth = .ok ordered from hselect]
    dsimp only
    have hmasked : g.failover env.masked.vars
        (fun t client key ↦ ProviderCall.mk t client request key) ordered env.masked.trial 0 =
          (g.failover env.vars (fun t client key ↦ ProviderCall.mk t client request key) ordered
            env.trial 0).map (·.maskedBy id) := g.failover_maskedBy ordered env.trial 0
    rw [hmasked]
    rcases g.failover env.vars (fun t client key ↦ ProviderCall.mk t client request key) ordered
      env.trial 0 with - | e
    · rfl
    · obtain ⟨target, result, latencyMs, calls⟩ := e
      rcases result with err | response
      · have htold : (Except.error (errorToResponse err.masked.flatten.toGatewayError) :
              Except ErrorResponse ChatCompletionResponse) =
            .error (errorToResponse err.flatten.toGatewayError) :=
          congrArg Except.error err.errorToResponse_masked.1
        exact congrArg (fun told ↦ Except.ok (target, told, latencyMs, calls)) htold
      · rfl

theorem answer_masked : (g.answer env.masked request auth).map Answer.view =
    (g.answer env request auth).map Answer.view := by
  rw [answer, answer, show cachedResponse env.masked request auth = cachedResponse env request auth
    from rfl]
  rcases cachedResponse env request auth with - | response
  · exact fetch_masked
  · rfl

/-- What a call is asked and told from its answer on depends on the answer's view. -/
theorem finish_view {ctx : PluginContext} {a a' : Answer} (h : a.view = a'.view) :
    (finish env.masked request auth ctx a).calls = (finish env request auth ctx a').calls ∧
      answerTo (finish env.masked request auth ctx a).result =
        answerTo (finish env request auth ctx a').result := by
  obtain ⟨target, result, latencyMs, calls⟩ := a
  obtain ⟨target', result', latencyMs', calls'⟩ := a'
  rw [Answer.view, Answer.view, Prod.mk.injEq, Prod.mk.injEq, Prod.mk.injEq] at h
  obtain ⟨htarget, htold, hlatency, hcalls⟩ := h
  obtain rfl : target = target' := htarget
  obtain rfl : latencyMs = latencyMs' := hlatency
  obtain rfl : calls = calls' := hcalls
  rcases result with e | response <;> rcases result' with e' | response'
  · exact ⟨rfl, htold⟩
  · cases htold
  · cases htold
  · obtain rfl : response = response' := Except.ok.inj htold
    exact ⟨rfl, rfl⟩

variable (g env request auth remoteIp) in
theorem route_masked : (g.route env.masked request auth remoteIp).calls =
      (g.route env request auth remoteIp).calls ∧
    answerTo (g.route env.masked request auth remoteIp).result =
      answerTo (g.route env request auth remoteIp).result := by
  rw [route, route, show env.masked.toRequestEnv = env.toRequestEnv from rfl]
  rcases g.prepareRequest env.toRequestEnv request auth remoteIp with e | ctx
  · exact ⟨rfl, rfl⟩
  · dsimp only
    have hanswer : (g.answer env.masked ctx.request auth).map Answer.view =
        (g.answer env ctx.request auth).map Answer.view := answer_masked
    rcases hmasked : g.answer env.masked ctx.request auth with e | a <;>
      rcases hplain : g.answer env ctx.request auth with e' | a' <;>
      rw [hmasked, hplain] at hanswer
    · obtain rfl : e = e' := Except.error.inj hanswer
      exact ⟨rfl, rfl⟩
    · cases hanswer
    · cases hanswer
    · exact finish_view (Except.ok.inj hanswer)

end Route

section Stream

variable {env : StreamEnv} {request : ChatCompletionRequest}
  {payload : StreamChunk → Except ProviderError String}

variable (g env request auth remoteIp payload) in
theorem routeStream_masked (dropMs : ℕ) (polls : List StreamPoll) :
    (g.routeStream env.masked auth request remoteIp).calls =
      (g.routeStream env auth request remoteIp).calls ∧
    ((answerTo (g.routeStream env.masked auth request remoteIp).result).map fun s ↦
        (SseBody.life payload dropMs polls ⟨some s, false⟩).events) =
      (answerTo (g.routeStream env auth request remoteIp).result).map fun s ↦
        (SseBody.life payload dropMs polls ⟨some s, false⟩).events := by
  rw [routeStream, routeStream, show env.masked.toRequestEnv = env.toRequestEnv from rfl]
  rcases g.prepareRequest env.toRequestEnv request auth remoteIp with e | ctx
  · exact ⟨rfl, rfl⟩
  · dsimp only
    rw [openStream, openStream]
    rcases hselect : g.selectTargets env.selection ctx.request auth with e | ordered
    · rw [show g.selectTargets env.masked.selection ctx.request auth = .error e from hselect]
      exact ⟨rfl, rfl⟩
    · rw [show g.selectTargets env.masked.selection ctx.request auth = .ok ordered from hselect]
      dsimp only
      have hmasked : g.failover env.masked.vars
          (fun t client key ↦ ProviderCall.mk t client ctx.request key) ordered env.masked.trial 0 =
            (g.failover env.vars (fun t client key ↦ ProviderCall.mk t client ctx.request key)
              ordered env.trial 0).map (·.maskedBy (List.map (maskedBy id))) :=
        g.failover_maskedBy ordered env.trial 0
      rw [hmasked]
      rcases g.failover env.vars (fun t client key ↦ ProviderCall.mk t client ctx.request key)
        ordered env.trial 0 with - | e
      · exact ⟨rfl, rfl⟩
      · obtain ⟨target, result, latencyMs, calls⟩ := e
        rcases result with err | stream
        · exact ⟨rfl, congrArg Except.error err.errorToResponse_masked.2⟩
        · refine ⟨rfl, congrArg Except.ok ?_⟩
          have halike : SseBody.Alike
              ⟨some (wrapStream auth ctx.request target (stream.map (maskedBy id))), false⟩
              ⟨some (wrapStream auth ctx.request target stream), false⟩ := by
            refine ⟨rfl, congrArg some ?_⟩
            show (stream.map (maskedBy id)).map (maskedBy id) = stream.map (maskedBy id)
            rw [List.map_map]
            exact List.map_congr_left fun item _ ↦ maskedBy_maskedBy item
          exact halike.events_life polls

end Stream

section Embed

variable {vars : String → Option String} {request : EmbeddingRequest}
  {answer : ℕ → Except ProviderError EmbeddingResponse}

theorem embedResult_masked (client : ProviderClient) (r : Except ProviderError EmbeddingResponse) :
    client.embedResult (maskedBy id r) = maskedBy id (client.embedResult r) := by
  rw [ProviderClient.embedResult, ProviderClient.embedResult]
  split
  · rfl
  · rfl

theorem visitEmbed_masked (t : Target) (r : Except ProviderError EmbeddingResponse) :
    g.visitEmbed vars request t (maskedBy id r) = g.visitEmbed vars request t r := by
  rw [visitEmbed, visitEmbed]
  rcases g.providers.get (routingKey t) with - | client
  · rfl
  · rcases g.getApiKey vars t with e | key
    · rfl
    · dsimp only
      rw [embedResult_masked, embedFallsBack_eq (maskedBy_maskedBy (client.embedResult r))]

/-- A turn leaves behind what tells the same as before. -/
theorem afterEmbed_masked (t : Target) (r : Except ProviderError EmbeddingResponse)
    {last last' : Except GatewayError EmbeddingResponse} (h : answerTo last = answerTo last') :
    answerTo (g.afterEmbed vars t (maskedBy id r) last) =
      answerTo (g.afterEmbed vars t r last') := by
  rw [afterEmbed, afterEmbed]
  rcases g.providers.get (routingKey t) with - | client
  · exact h
  · rcases g.getApiKey vars t with e | key
    · rfl
    · dsimp only
      rw [embedResult_masked]
      rcases client.embedResult r with e | response
      · rcases e with _ | _ | _ | _ | ⟨status, message⟩ | _ | _ | _ | _ | _ | _ | _
        case unsupported => exact h
        all_goals rfl
      · rfl

theorem embedLoop_masked (targets : List Target)
    {last last' : Except GatewayError EmbeddingResponse} (h : answerTo last = answerTo last') :
    (g.embedLoop vars request targets (fun i ↦ maskedBy id (answer i)) last).calls =
        (g.embedLoop vars request targets answer last').calls ∧
      answerTo (g.embedLoop vars request targets (fun i ↦ maskedBy id (answer i)) last).result =
        answerTo (g.embedLoop vars request targets answer last').result := by
  induction targets generalizing answer last last' with
  | nil => exact ⟨rfl, h⟩
  | cons t rest ih =>
    have hlast : answerTo (g.afterEmbed vars t (maskedBy id (answer 0)) last) =
        answerTo (g.afterEmbed vars t (answer 0) last') := afterEmbed_masked t (answer 0) h
    obtain ⟨hcalls, hresult⟩ := @ih (fun i ↦ answer (i + 1)) _ _ hlast
    rw [embedLoop, embedLoop, visitEmbed_masked]
    split
    · exact ⟨congrArg ((g.visitEmbed vars request t (answer 0)).1.toList ++ ·) hcalls, hresult⟩
    · exact ⟨rfl, hlast⟩

variable (g request auth answer) in
theorem runEmbed_masked (env : RequestEnv) :
    (g.runEmbed request env auth fun i ↦ maskedBy id (answer i)).calls =
        (g.runEmbed request env auth answer).calls ∧
      answerTo (g.runEmbed request env auth fun i ↦ maskedBy id (answer i)).result =
        answerTo (g.runEmbed request env auth answer).result := by
  rw [runEmbed, runEmbed]
  rcases checkRateLimits env.limiter g.config auth with e | -
  · exact ⟨rfl, rfl⟩
  · rcases checkRbacModel g.config auth request.model with e | -
    · exact ⟨rfl, rfl⟩
    · dsimp only
      split
      · exact ⟨rfl, rfl⟩
      · rcases filterTargetsByRbac g.config auth g.targets with e | targets
        · exact ⟨rfl, rfl⟩
        · exact embedLoop_masked targets rfl

end Embed

end Gateway

/-- The upstreams without the words of their errors. -/
def Upstream.masked (u : Upstream) : Upstream where
  complete i := (u.complete i).maskedBy id
  stream i := (u.stream i).maskedBy (List.map (maskedBy id))
  embed i := maskedBy id (u.embed i)

theorem Gateway.answers_masked (g : Gateway) (client : ClientRequests) (u : Upstream) :
    g.answers client u.masked = g.answers client u := by
  obtain ⟨hchatCalls, hchat⟩ := g.route_masked client.auth client.remoteIp
    { client.env with trial := u.complete } client.chat
  obtain ⟨hstreamCalls, hevents⟩ := g.routeStream_masked client.auth client.remoteIp
    ⟨client.env.toRequestEnv, u.stream⟩ client.chat client.payload client.dropMs client.polls
  obtain ⟨hembedCalls, hembedding⟩ := g.runEmbed_masked client.auth client.embedding u.embed
    client.env.toRequestEnv
  exact Answers.mk.injEq .. |>.mpr
    ⟨hchatCalls, hchat, hstreamCalls, hevents, hembedCalls, hembedding⟩

/-- **An upstream's own words stay inside** unless they blame the request: upstreams that answer
alike but for them are asked the same on every path, and the client gets the same. -/
theorem words_stay_inside (g : Gateway) (client : ClientRequests) {u u' : Upstream}
    (h : u.Alike u') : g.answers client u = g.answers client u' := by
  have hmasked : u.masked = u'.masked := by
    rw [Upstream.masked, Upstream.masked, funext h.complete, funext h.stream, funext h.embed]
  rw [← g.answers_masked client u, hmasked, g.answers_masked client u']

/-- Requests to the gateway of one provider. -/
def helloRequests : ClientRequests where
  env := { RouteEnv.plain with
    toRequestEnv := { RequestEnv.plain with vars := fun _ ↦ some "sk-openai" } }
  auth := none
  remoteIp := none
  chat := .ofMessages "gpt-4o" [.user "hello"]
  embedding := ⟨"text-embedding-3-large", .single "hello", none, none, none, .empty⟩
  payload chunk := .ok chunk.id
  dropMs := 0
  polls := [.ready 1, .ready 2]

/-- An upstream that cannot be reached, on any path. -/
def unreachable (why : String) : Upstream where
  complete _ := ⟨true, .error (.network why), 1⟩
  stream _ := ⟨true, .ok [.error (.network why)], 1⟩
  embed _ := .error (.network why)

theorem words_stay_inside_unreachable :
    ThreePaths.rateLimitedUpstream.gateway.answers helloRequests (unreachable "10.0.0.7:443") =
      ThreePaths.rateLimitedUpstream.gateway.answers helloRequests (unreachable "timed out") :=
  words_stay_inside _ _ ⟨fun _ ↦ rfl, fun _ ↦ rfl, fun _ ↦ rfl⟩

end Himadri
