import Himadri.Core.IpAddr
import Himadri.Core.ResponseJson
import Himadri.Provider.Client
import Himadri.Provider.Gemini
import Himadri.Provider.Sse

/-!
# What a client makes of an upstream's answer

The three implementations of `Provider`, from the answer to their request on. An answer that is no
success is an error by its status (`from_response`); a success is what the client reads its body as.

Failures are read alike by all three but for a 403, which only Gemini's client takes for a failed
authentication. To the gateway both are that, so that neither whether a request is tried elsewhere
nor what its client is told of a failed answer depends on whose answer it is
(`toGatewayError_handleError`, `retryable_completed_iff`).
-/

namespace Himadri

/-! ### Answers -/

/-- An upstream's answer. -/
structure HttpAnswer where
  status : ℕ
  /-- `Retry-After`, where it is there and printable. -/
  retryAfter : Option String
  /-- The body as text, or what ended it before it was whole. -/
  body : Except String String

/-- How the sending of a request ends. -/
inductive HttpReply
  | failed (words : String)
  | answered (answer : HttpAnswer)

/-- What `serde_json` reads, and what `reqwest` says of a body that it cannot read. -/
structure BodyText extends JsonText where
  undecodable : String → String

namespace HttpAnswer

variable (text : BodyText) (answer : HttpAnswer)

/-- `StatusCode::is_success`. -/
def isSuccess : Bool := 200 ≤ answer.status && answer.status < 300

/-- `Response::json`. -/
def json : Except ProviderError Json :=
  match answer.body with
  | .error words => .error (.network words)
  | .ok body => (text.fromStr body).mapError fun e ↦ .network (text.undecodable e)

/-- The `extract_message` of the three clients. -/
def extractMessage (v : Json) : Option String :=
  (((v.get "error").get "message").asStr).or (v.get "message").asStr

/-- What the body says, or else the body. -/
def message : String :=
  let body := answer.body.toOption.getD ""
  ((text.fromStr body).toOption.bind extractMessage).getD body

/-- How long the answer asks to wait, in seconds. -/
def retryAfterSecs : ℕ := (answer.retryAfter.bind fun v ↦ parseU64 (Text.trim v)).getD 60

end HttpAnswer

/-- `ProviderError::from_response`. -/
def ProviderError.fromResponse (text : BodyText) (answer : HttpAnswer) (authStatuses : List ℕ) :
    ProviderError :=
  if authStatuses.contains answer.status then .auth (answer.message text)
  else if answer.status = 429 then .rateLimited answer.retryAfterSecs
  else if answer.status = 404 then .modelNotFound (answer.message text)
  else .api answer.status (answer.message text)

/-- `ProviderError::from_openai_response`. -/
def ProviderError.fromOpenaiResponse (text : BodyText) (answer : HttpAnswer) : ProviderError :=
  .fromResponse text answer [401]

/-! ### Compatible answers -/

namespace Compatible

/-- `normalize_tool_calls`. -/
def normalizeToolCalls {α : Type} (toolCalls : Option (List α)) : Option (List α) :=
  toolCalls.filter (!·.isEmpty)

variable (text : JsonText)

/-- `OpenAiCompatibleProvider::parse_response`. -/
def parseResponse (v : Json) : Except ProviderError ChatCompletionResponse :=
  match decodeResponse v with
  | none => .error (.parse ("malformed provider response: " ++ text.why v))
  | some parsed =>
    .ok { parsed with
      object := "chat.completion"
      choices := parsed.choices.map fun c ↦
        { c with message.toolCalls := normalizeToolCalls c.message.toolCalls } }

/-- `OpenAiCompatibleProvider::parse_stream_chunk`. -/
def parseStreamChunk (data : String) : Except ProviderError StreamChunk :=
  match text.fromStr data with
  | .error e => .error (.parse ("malformed stream chunk: " ++ e))
  | .ok v =>
    match decodeChunk v with
    | none => .error (.parse ("malformed stream chunk: " ++ text.why v))
    | some chunk =>
      .ok { chunk with
        object := "chat.completion.chunk"
        choices := chunk.choices.map fun c ↦
          { c with delta.toolCalls := normalizeToolCalls c.delta.toolCalls } }

/-- The stream of `complete_stream`, of the body that answers it. -/
def streamItems (body : List (Except String (List UInt8))) :
    List (Except ProviderError StreamChunk) :=
  (sseEvents [] none body).map fun event ↦ event.bind fun e ↦ parseStreamChunk text e.data

end Compatible

/-! ### The clients -/

namespace ProviderClient

variable (text : BodyText) (client : ProviderClient)

/-- `handle_error`. -/
def handleError (answer : HttpAnswer) : ProviderError :=
  match client with
  | .compatible _ => .fromOpenaiResponse text answer
  | .anthropic _ => .fromOpenaiResponse text answer
  | .gemini _ => .fromResponse text answer [401, 403]

/-- `parse_response`. -/
def parseResponse (env : ProviderEnv) (model : String) (v : Json) :
    Except Panic (Except ProviderError ChatCompletionResponse) :=
  match client with
  | .compatible _ => .ok (Compatible.parseResponse text.toJsonText v)
  | .anthropic _ => Anthropic.parseResponse env v
  | .gemini _ => Gemini.parseResponse env v model

/-- `Provider::complete`, from the reply to its request on. -/
def completed (env : ProviderEnv) (model : String) (reply : HttpReply) :
    Except Panic (Except ProviderError ChatCompletionResponse) :=
  match reply with
  | .failed words => .ok (.error (.network words))
  | .answered answer =>
    if answer.isSuccess then
      match answer.json text with
      | .error e => .ok (.error e)
      | .ok v => client.parseResponse text env model v
    else .ok (.error (client.handleError text answer))

/-- `Provider::complete_stream`, from the reply on; `items` is what the body is read as. -/
def opened {α : Type} (items : HttpAnswer → α) (reply : HttpReply) : Except ProviderError α :=
  match reply with
  | .failed words => .error (.network words)
  | .answered answer =>
    if answer.isSuccess then .ok (items answer) else .error (client.handleError text answer)

end ProviderClient

/-! ### What is made of a failure -/

namespace HttpReply

/-- No answer, or one that is no success. -/
def Fails : HttpReply → Prop
  | .failed _ => True
  | .answered answer => answer.isSuccess = false

/-- No answer, or one that blames neither the request nor the gateway's key. -/
def Unavailable : HttpReply → Prop
  | .failed _ => True
  | .answered answer => answer.status ∈ [429, 500, 502, 503, 504, 529]

/-- A success whose body is no JSON. -/
def Unreadable (text : BodyText) : HttpReply → Prop
  | .failed _ => False
  | .answered answer => answer.isSuccess = true ∧ ∃ e, answer.json text = .error e

/-- What a failed reply is to the gateway. -/
def gatewayError (text : BodyText) : HttpReply → GatewayError
  | .failed words => .serviceUnavailable words
  | .answered answer =>
    if answer.status = 401 ∨ answer.status = 403 then
      .serviceUnavailable "upstream provider authentication failed"
    else if answer.status = 429 then .rateLimited answer.retryAfterSecs
    else if answer.status = 404 then .notFound ("model: " ++ answer.message text)
    else if 400 ≤ answer.status ∧ answer.status < 500 then .badRequest (answer.message text)
    else .serviceUnavailable (answer.message text)

end HttpReply

namespace ProviderClient

variable {text : BodyText} {client : ProviderClient} {env : ProviderEnv} {model : String}
  {reply : HttpReply}

/-- A client reads an answer by its status, and takes 401 for a failed authentication. -/
theorem exists_handleError (text : BodyText) (client : ProviderClient) (answer : HttpAnswer) :
    ∃ authStatuses, 401 ∈ authStatuses ∧ (∀ s ∈ authStatuses, s = 401 ∨ s = 403) ∧
      client.handleError text answer = .fromResponse text answer authStatuses := by
  rcases client with config | baseUrl | baseUrl
  · exact ⟨[401], by simp, by simp, rfl⟩
  · exact ⟨[401], by simp, by simp, rfl⟩
  · exact ⟨[401, 403], by simp, by simp, rfl⟩

/-- The gateway is told the same of a failed answer by every client. -/
theorem toGatewayError_handleError (text : BodyText) (client : ProviderClient)
    (answer : HttpAnswer) :
    (client.handleError text answer).toGatewayError =
      (HttpReply.answered answer).gatewayError text := by
  obtain ⟨authStatuses, hmem, hauth, heq⟩ := exists_handleError text client answer
  rw [heq, ProviderError.fromResponse, HttpReply.gatewayError]
  by_cases hcontains : authStatuses.contains answer.status
  · rw [if_pos hcontains, if_pos (hauth _ (List.contains_iff_mem.1 hcontains))]
    rfl
  · rw [if_neg hcontains]
    have h401 : answer.status ≠ 401 := fun h ↦
      hcontains (List.contains_iff_mem.2 (h ▸ hmem))
    by_cases h403 : answer.status = 403
    · simp [h403, ProviderError.toGatewayError]
    · by_cases h429 : answer.status = 429
      · simp [h429, ProviderError.toGatewayError]
      · by_cases h404 : answer.status = 404
        · simp [h404, ProviderError.toGatewayError]
        · simp [h401, h403, h429, h404, ProviderError.toGatewayError]

/-- The loop may go on behind a failed answer exactly where it blames neither side. -/
theorem retryable_handleError (text : BodyText) (client : ProviderClient) (answer : HttpAnswer) :
    (client.handleError text answer).retryable = true ↔
      (HttpReply.answered answer).Unavailable := by
  obtain ⟨authStatuses, hmem, hauth, heq⟩ := exists_handleError text client answer
  rw [heq, ProviderError.fromResponse, HttpReply.Unavailable]
  by_cases hcontains : authStatuses.contains answer.status
  · rw [if_pos hcontains]
    rcases hauth _ (List.contains_iff_mem.1 hcontains) with h | h
    · simp [h, ProviderError.retryable]
    · simp [h, ProviderError.retryable]
  · rw [if_neg hcontains]
    by_cases h429 : answer.status = 429
    · simp [h429, ProviderError.retryable]
    · by_cases h404 : answer.status = 404
      · simp [h404, ProviderError.retryable]
      · simp [h429, h404, ProviderError.retryable]

/-- What a client cannot make of a body is no reason to try elsewhere. -/
theorem not_retryable_parseResponse {v : Json} {e : ProviderError}
    (h : client.parseResponse text env model v = .ok (.error e)) : e.retryable = false := by
  rcases client with config | baseUrl | baseUrl
  · have hparse := Except.ok.inj h
    rw [Compatible.parseResponse] at hparse
    split at hparse
    · exact Except.error.inj hparse ▸ rfl
    · cases hparse
  · replace h : Anthropic.parseResponse env v = .ok (.error e) := h
    rw [Anthropic.parseResponse] at h
    rcases husage : (v.get "usage").asObject.mapM Anthropic.responseUsage with panic | usage
    · rw [husage] at h
      cases h
    · rw [husage] at h
      cases h
  · replace h : Gemini.parseResponse env v model = .ok (.error e) := h
    rw [Gemini.parseResponse] at h
    split at h
    · exact Except.error.inj (Except.ok.inj h) ▸ rfl
    · rcases husage : (v.get "usageMetadata").asObject.mapM Gemini.usageOf with panic | usage
      · rw [husage] at h
        cases h
      · rw [husage] at h
        cases h

/-- A failed reply fails the call with the same error to the gateway, whoever it is from. -/
theorem toGatewayError_completed (text : BodyText) (client : ProviderClient) (env : ProviderEnv)
    (model : String) (hfails : reply.Fails) :
    ∃ e, client.completed text env model reply = .ok (.error e) ∧
      e.toGatewayError = reply.gatewayError text := by
  rcases reply with words | answer
  · exact ⟨_, rfl, rfl⟩
  · refine ⟨_, ?_, toGatewayError_handleError text client answer⟩
    rw [completed, if_neg (by rw [show answer.isSuccess = false from hfails]; decide)]

theorem toGatewayError_opened {α : Type} (text : BodyText) (client : ProviderClient)
    (items : HttpAnswer → α) (hfails : reply.Fails) :
    ∃ e, client.opened text items reply = .error e ∧
      e.toGatewayError = reply.gatewayError text := by
  rcases reply with words | answer
  · exact ⟨_, rfl, rfl⟩
  · refine ⟨_, ?_, toGatewayError_handleError text client answer⟩
    rw [opened, if_neg (by rw [show answer.isSuccess = false from hfails]; decide)]

theorem exists_error_iff {ε α : Type*} {p : ε → Prop} {e : ε} :
    (∃ e', (Except.error e : Except ε α) = .error e' ∧ p e') ↔ p e := by
  simp

theorem not_unavailable_of_isSuccess {answer : HttpAnswer} (h : answer.isSuccess = true) :
    ¬(HttpReply.answered answer).Unavailable := by
  rw [HttpAnswer.isSuccess, Bool.and_eq_true, decide_eq_true_iff, decide_eq_true_iff] at h
  intro hmem
  replace hmem : answer.status ∈ [429, 500, 502, 503, 504, 529] := hmem
  simp only [List.mem_cons, List.not_mem_nil, or_false] at hmem
  omega

/-- Whether a call may be tried elsewhere is decided by the reply, whoever it is from. -/
theorem retryable_completed_iff {result : Except ProviderError ChatCompletionResponse}
    (h : client.completed text env model reply = .ok result) :
    (∃ e, result = .error e ∧ e.retryable = true) ↔
      reply.Unavailable ∨ reply.Unreadable text := by
  rcases reply with words | answer
  · exact iff_of_true ⟨_, (Except.ok.inj h).symm, rfl⟩ (.inl trivial)
  · rw [completed] at h
    by_cases hsuccess : answer.isSuccess = true
    · rw [if_pos hsuccess] at h
      rw [or_iff_right (not_unavailable_of_isSuccess hsuccess), HttpReply.Unreadable,
        and_iff_right hsuccess]
      rcases hjson : answer.json text with e | v
      · rw [hjson] at h
        refine iff_of_true ⟨e, (Except.ok.inj h).symm, ?_⟩ ⟨e, rfl⟩
        rw [HttpAnswer.json] at hjson
        split at hjson
        · exact Except.error.inj hjson ▸ rfl
        · next body _ =>
          rcases hread : text.fromStr body with words | v
          · rw [hread] at hjson
            exact Except.error.inj hjson ▸ rfl
          · rw [hread] at hjson
            cases hjson
      · rw [hjson] at h
        refine iff_of_false ?_ fun hunread ↦ by cases hunread.choose_spec
        rintro ⟨e, rfl, hretryable⟩
        rw [not_retryable_parseResponse h] at hretryable
        cases hretryable
    · rw [if_neg hsuccess] at h
      rw [or_iff_left fun hunread : (HttpReply.answered answer).Unreadable text ↦
        hsuccess hunread.1, ← retryable_handleError text client]
      obtain rfl := Except.ok.inj h
      exact exists_error_iff

theorem retryable_opened_iff {α : Type} (items : HttpAnswer → α) :
    (∃ e, client.opened text items reply = .error e ∧ e.retryable = true) ↔
      reply.Unavailable := by
  rcases reply with words | answer
  · exact iff_of_true ⟨_, rfl, rfl⟩ trivial
  · rw [opened]
    by_cases hsuccess : answer.isSuccess = true
    · rw [if_pos hsuccess]
      refine iff_of_false ?_ (not_unavailable_of_isSuccess hsuccess)
      rintro ⟨e, heq, -⟩
      cases heq
    · rw [if_neg hsuccess, ← retryable_handleError text client]
      exact exists_error_iff

end ProviderClient

/-! ### What is made of a success -/

/-- A response as the clients give it out: of the chat kind, with tool calls or without the list,
and with numbers that its fields hold. -/
structure ChatCompletionResponse.Regular (r : ChatCompletionResponse) : Prop extends r.Fits where
  object : r.object = "chat.completion"
  calls : ∀ c ∈ r.choices, c.message.toolCalls ≠ some []

/-- The same of a chunk. -/
structure StreamChunk.Regular (c : StreamChunk) : Prop extends c.Fits where
  object : c.object = "chat.completion.chunk"
  calls : ∀ choice ∈ c.choices, choice.delta.toolCalls ≠ some []

theorem filter_ne_some_nil {α : Type} (o : Option (List α)) :
    o.filter (!·.isEmpty) ≠ some [] := by
  intro h
  rw [Option.filter_eq_some_iff] at h
  cases h.2

theorem zero_lt_u32 : 0 < UInt32.size := by decide

theorem tokenCount_lt (v : Json) : tokenCount v < UInt32.size := Nat.mod_lt _ zero_lt_u32

theorem forall_of_mapM {α β ε : Type} {f : α → Except ε β} {P : β → Prop}
    (h : ∀ a b, f a = .ok b → P b) {o : Option α} {made : Option β} (ho : o.mapM f = .ok made) :
    ∀ b ∈ made, P b := by
  rcases o with - | a
  · obtain rfl := Except.ok.inj ho
    exact fun b hb ↦ by cases hb
  · obtain ⟨b, hb, hmade⟩ := Except.bind_eq_ok
      (show (f a >>= fun b ↦ .ok (some b)) = .ok made from ho)
    obtain rfl := Except.ok.inj hmade
    intro c hc
    obtain rfl := Option.some.inj hc
    exact h a b hb

namespace Compatible

theorem normalizeToolCalls_of_ne {α : Type} {o : Option (List α)} (h : o ≠ some []) :
    normalizeToolCalls o = o := by
  rcases o with - | - | ⟨call, calls⟩
  · rfl
  · exact absurd rfl h
  · rfl

/-- A regular response is read back from what it is written as. -/
theorem parseResponse_json {r : ChatCompletionResponse} (h : r.Regular) (text : JsonText) :
    parseResponse text r.json = .ok r := by
  have hchoices : (r.choices.map fun c ↦
      { c with message.toolCalls := normalizeToolCalls c.message.toolCalls }) = r.choices := by
    refine (List.map_congr_left fun c hc ↦ ?_).trans (List.map_id r.choices)
    rw [normalizeToolCalls_of_ne (h.calls c hc)]
    rfl
  rw [parseResponse, decodeResponse_json h.toFits]
  dsimp only
  rw [hchoices, ← h.object]

theorem regular_parseResponse {text : JsonText} {v : Json} {r : ChatCompletionResponse}
    (h : parseResponse text v = .ok r) : r.Regular := by
  rw [parseResponse] at h
  rcases hread : decodeResponse v with - | parsed
  · rw [hread] at h
    cases h
  · rw [hread] at h
    obtain rfl := Except.ok.inj h
    have hfits := yields_response v parsed hread
    refine ⟨⟨hfits.created, fun c hc ↦ ?_, hfits.usage⟩, rfl, fun c hc ↦ ?_⟩
    · obtain ⟨c, hmem, rfl⟩ := List.mem_map.1 hc
      exact hfits.indices c hmem
    · obtain ⟨c, hmem, rfl⟩ := List.mem_map.1 hc
      exact filter_ne_some_nil _

/-- A regular chunk is read back from what it is written as. -/
theorem parseStreamChunk_json {c : StreamChunk} (h : c.Regular) {text : JsonText} {data : String}
    (hdata : text.fromStr data = .ok c.json) : parseStreamChunk text data = .ok c := by
  have hchoices : (c.choices.map fun choice ↦
      { choice with delta.toolCalls := normalizeToolCalls choice.delta.toolCalls }) =
        c.choices := by
    refine (List.map_congr_left fun choice hchoice ↦ ?_).trans (List.map_id c.choices)
    rw [normalizeToolCalls_of_ne (h.calls choice hchoice)]
    rfl
  rw [parseStreamChunk, hdata]
  dsimp only
  rw [decodeChunk_json h.toFits]
  dsimp only
  rw [hchoices, ← h.object]

theorem regular_parseStreamChunk {text : JsonText} {data : String} {c : StreamChunk}
    (h : parseStreamChunk text data = .ok c) : c.Regular := by
  rw [parseStreamChunk] at h
  rcases htext : text.fromStr data with e | v
  · rw [htext] at h
    cases h
  · rw [htext] at h
    dsimp only at h
    rcases hread : decodeChunk v with - | parsed
    · rw [hread] at h
      cases h
    · rw [hread] at h
      obtain rfl := Except.ok.inj h
      have hfits := yields_chunk v parsed hread
      refine ⟨⟨hfits.created, fun choice hchoice ↦ ?_, hfits.usage⟩, rfl, fun choice hchoice ↦ ?_⟩
      · obtain ⟨choice, hmem, rfl⟩ := List.mem_map.1 hchoice
        refine ⟨(hfits.choices choice hmem).1, fun calls hcalls ↦ ?_⟩
        exact (hfits.choices choice hmem).2 calls (Option.filter_eq_some_iff.1 hcalls).1
      · obtain ⟨choice, hmem, rfl⟩ := List.mem_map.1 hchoice
        exact filter_ne_some_nil _

end Compatible

namespace Anthropic

variable {env : ProviderEnv}

theorem fits_responseUsage (u : List (String × Json)) (usage : Usage)
    (h : responseUsage u = .ok usage) : usage.Fits := by
  obtain ⟨input, -, h⟩ := Except.bind_eq_ok h
  obtain ⟨output, -, h⟩ := Except.bind_eq_ok h
  obtain ⟨total, htotal, h⟩ := Except.bind_eq_ok h
  obtain rfl := Except.ok.inj h
  obtain ⟨hlt, rfl⟩ := addU32_eq_ok.1 htotal
  exact ⟨tokenCount_lt input, tokenCount_lt output, hlt⟩

theorem regular_parseResponse (hnow : env.now < UInt64.size) {v : Json}
    {r : ChatCompletionResponse} (h : parseResponse env v = .ok (.ok r)) : r.Regular := by
  obtain ⟨usage, husage, h⟩ := Except.bind_eq_ok h
  obtain rfl := Except.ok.inj (Except.ok.inj h)
  refine ⟨⟨hnow, fun c hc ↦ ?_, forall_of_mapM fits_responseUsage husage⟩, rfl, fun c hc ↦ ?_⟩
  · obtain rfl := List.mem_singleton.1 hc
    exact zero_lt_u32
  · obtain rfl := List.mem_singleton.1 hc
    exact filter_ne_some_nil _

theorem fits_deltaUsage {inputTokens : ℕ} (u : List (String × Json)) (usage : Usage)
    (h : deltaUsage inputTokens u = .ok usage) : usage.Fits := by
  obtain ⟨output, -, h⟩ := Except.bind_eq_ok h
  obtain ⟨total, htotal, h⟩ := Except.bind_eq_ok h
  obtain rfl := Except.ok.inj h
  obtain ⟨hlt, rfl⟩ := addU32_eq_ok.1 htotal
  exact ⟨Nat.lt_of_le_of_lt (Nat.le_add_right _ _) hlt, tokenCount_lt output, hlt⟩

/-- A chunk with an id and a model set. -/
theorem regular_streamChunk {now : ℕ} (hnow : now < UInt64.size) {delta : Delta}
    (hcalls : delta.toolCalls = none) (finishReason : Option String) {usage : Option Usage}
    (husage : ∀ u ∈ usage, u.Fits) (id model : String) :
    ({ streamChunk now delta finishReason usage with id, model } : StreamChunk).Regular := by
  refine ⟨⟨hnow, fun choice hchoice ↦ ?_, husage⟩, rfl, fun choice hchoice ↦ ?_⟩
  · obtain rfl := List.mem_singleton.1 hchoice
    refine ⟨zero_lt_u32, fun calls h ↦ ?_⟩
    rw [hcalls] at h
    cases h
  · obtain rfl := List.mem_singleton.1 hchoice
    rw [show (⟨0, delta, finishReason⟩ : StreamChoice).delta.toolCalls = none from hcalls]
    exact fun h ↦ by cases h

theorem regular_parseStreamEvent (hnow : env.now < UInt64.size) {eventType : String} {data : Json}
    {inputTokens n : ℕ} {c : StreamChunk}
    (h : parseStreamEvent env.now eventType data inputTokens = .ok (some (.ok c), n)) :
    c.Regular := by
  have hnone : ∀ u ∈ (none : Option Usage), u.Fits := fun _ hu ↦ by cases hu
  rw [parseStreamEvent] at h
  split at h
  · obtain ⟨hsome, -⟩ := Prod.mk.inj (Except.ok.inj h)
    obtain rfl := Except.ok.inj (Option.some.inj hsome)
    exact regular_streamChunk hnow rfl none hnone _ _
  · split at h
    · obtain ⟨hsome, -⟩ := Prod.mk.inj (Except.ok.inj h)
      obtain rfl := Except.ok.inj (Option.some.inj hsome)
      exact regular_streamChunk hnow rfl none hnone "" ""
    · split at h
      · obtain ⟨usage, husage, h⟩ := Except.bind_eq_ok h
        obtain ⟨hsome, -⟩ := Prod.mk.inj (Except.ok.inj h)
        obtain rfl := Except.ok.inj (Option.some.inj hsome)
        exact regular_streamChunk hnow rfl _ (forall_of_mapM fits_deltaUsage husage) "" ""
      · cases (Prod.mk.inj (Except.ok.inj h)).1

end Anthropic

namespace Gemini

variable {env : ProviderEnv} {model : String}

theorem fits_usageOf (u : List (String × Json)) (usage : Usage) (h : usageOf u = .ok usage) :
    usage.Fits := by
  obtain ⟨prompt, -, h⟩ := Except.bind_eq_ok h
  obtain ⟨candidates, -, h⟩ := Except.bind_eq_ok h
  obtain ⟨total, -, h⟩ := Except.bind_eq_ok h
  obtain rfl := Except.ok.inj h
  exact ⟨tokenCount_lt prompt, tokenCount_lt candidates, tokenCount_lt total⟩

theorem regular_parseResponse (hnow : env.now < UInt64.size) {v : Json}
    {r : ChatCompletionResponse} (h : parseResponse env v model = .ok (.ok r)) : r.Regular := by
  rw [parseResponse] at h
  split at h
  · cases Except.ok.inj h
  · obtain ⟨usage, husage, h⟩ := Except.bind_eq_ok h
    obtain rfl := Except.ok.inj (Except.ok.inj h)
    refine ⟨⟨hnow, fun c hc ↦ ?_, forall_of_mapM fits_usageOf husage⟩, rfl, fun c hc ↦ ?_⟩
    · obtain rfl := List.mem_singleton.1 hc
      exact zero_lt_u32
    · obtain rfl := List.mem_singleton.1 hc
      exact filter_ne_some_nil _

theorem regular_parseStreamChunk (hnow : env.now < UInt64.size) {v : Json} {c : StreamChunk}
    (h : parseStreamChunk env v model = .ok (.ok c)) : c.Regular := by
  obtain ⟨usage, husage, h⟩ := Except.bind_eq_ok h
  obtain rfl := Except.ok.inj (Except.ok.inj h)
  refine ⟨⟨hnow, fun choice hchoice ↦ ?_, forall_of_mapM fits_usageOf husage⟩, rfl,
    fun choice hchoice ↦ ?_⟩
  · obtain rfl := List.mem_singleton.1 hchoice
    exact ⟨zero_lt_u32, fun calls hcalls ↦ by cases hcalls⟩
  · obtain rfl := List.mem_singleton.1 hchoice
    exact fun hcalls ↦ by cases hcalls

end Gemini

/-- The chunk is one that a client reads of an event. -/
inductive ProviderClient.Makes (text : JsonText) (env : ProviderEnv) (model : String) :
    ProviderClient → StreamChunk → Prop
  | compatible (config : OpenAiCompatibleConfig) (data : String) (c : StreamChunk)
    (h : Compatible.parseStreamChunk text data = .ok c) :
    Makes text env model (.compatible config) c
  | anthropic (baseUrl eventType : String) (data : Json) (inputTokens n : ℕ) (c : StreamChunk)
    (h : Anthropic.parseStreamEvent env.now eventType data inputTokens = .ok (some (.ok c), n)) :
    Makes text env model (.anthropic baseUrl) c
  | gemini (baseUrl : String) (v : Json) (c : StreamChunk)
    (h : Gemini.parseStreamChunk env v model = .ok (.ok c)) :
    Makes text env model (.gemini baseUrl) c

namespace ProviderClient

variable {env : ProviderEnv} {model : String} {client : ProviderClient}

/-- What a client makes of a success is regular. -/
theorem regular_completed {text : BodyText} (hnow : env.now < UInt64.size) {reply : HttpReply}
    {r : ChatCompletionResponse} (h : client.completed text env model reply = .ok (.ok r)) :
    r.Regular := by
  rcases reply with words | answer
  · cases Except.ok.inj h
  · rw [completed] at h
    split at h
    · rcases hjson : answer.json text with e | v
      · rw [hjson] at h
        cases Except.ok.inj h
      · rw [hjson] at h
        rcases client with config | baseUrl | baseUrl
        · exact Compatible.regular_parseResponse (Except.ok.inj h)
        · exact Anthropic.regular_parseResponse hnow h
        · exact Gemini.regular_parseResponse hnow h
    · cases Except.ok.inj h

theorem regular_of_makes {text : JsonText} (hnow : env.now < UInt64.size) {c : StreamChunk}
    (h : client.Makes text env model c) : c.Regular := by
  rcases h with ⟨_, _, _, h⟩ | ⟨_, _, _, _, _, _, h⟩ | ⟨_, _, _, h⟩
  · exact Compatible.regular_parseStreamChunk h
  · exact Anthropic.regular_parseStreamEvent hnow h
  · exact Gemini.regular_parseStreamChunk hnow h

end ProviderClient

end Himadri
