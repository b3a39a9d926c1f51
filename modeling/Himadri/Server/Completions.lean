import Himadri.Core.ReadsBack
import Himadri.Core.RequestJson
import Himadri.Core.ResponseJson
import Himadri.Server.ErrorResponses
import Himadri.Server.Metrics

/-!
# Legacy completions

`POST /v1/completions` takes a prompt in place of messages. `legacy_to_chat` writes it down as the
JSON of a chat request and decodes that; what comes back is written as a text completion, whole or
chunk by chunk.

The request that is decoded is the one meant (`legacyToChat_eq`), so that a legacy call is served as
the chat call with the prompt for its only message is: by the same upstream requests, recorded and
accounted alike, and answered alike but for the shape of a body or of an event (`legacy_as_chat`).
-/

namespace Himadri

open Serde

/-! ### The request -/

/-- `LegacyPrompt`. -/
inductive LegacyPrompt
  | none
  | text (text : String)
  | many (parts : List String)

/-- `LegacyPrompt::into_text`. -/
def LegacyPrompt.intoText : LegacyPrompt → String
  | .none => ""
  | .text t => t
  | .many parts => String.intercalate "\n" parts

/-- `LegacyCompletionRequest`. -/
structure LegacyCompletionRequest where
  model : String
  prompt : LegacyPrompt
  maxTokens : Option UInt32
  temperature : Option ℚ
  topP : Option ℚ
  stop : Option Json
  stream : Bool
  user : Option String

/-- `LegacyPrompt`, by the first variant that fits. -/
def decodeLegacyPrompt : Json → Option LegacyPrompt
  | .null => some .none
  | .string text => some (.text text)
  | .array items => (items.mapM string).map .many
  | _ => none

/-- `LegacyCompletionRequest`. -/
def decodeLegacy (v : Json) : Option LegacyCompletionRequest := do
  guard (v.elements.length ≤ 8)
  let model ← structField v 0 "model" none none string
  let prompt ← structField v 1 "prompt" (some .none) (some .none) decodeLegacyPrompt
  let maxTokens ← structField v 2 "max_tokens" (some none) (some none)
    (option (unsigned UInt32.size))
  let temperature ← structField v 3 "temperature" (some none) (some none) (option f64)
  let topP ← structField v 4 "top_p" (some none) (some none) (option f64)
  let stop ← structField v 5 "stop" (some none) (some none) (option value)
  let stream ← structField v 6 "stream" (some false) (some false) bool
  let user ← structField v 7 "user" (some none) (some none) (option string)
  return { model, prompt, maxTokens := maxTokens.map UInt32.ofNat, temperature, topP, stop, stream,
           user }

namespace LegacyCompletionRequest

variable (r : LegacyCompletionRequest)

/-- `stop` as `legacy_to_chat` writes it down. -/
def stopJson : Json :=
  match r.stop with
  | none | some .null => .null
  | some (.string s) => .array [.string s]
  | some other => other

/-- The chat request in JSON. -/
def chatMembers : List (String × Json) :=
  [("model", .string r.model),
    ("messages",
      .array [.object [("role", .string "user"), ("content", .string r.prompt.intoText)]]),
    ("max_tokens", r.maxTokens.elim .null fun n ↦ Json.nat n.toNat),
    ("temperature", r.temperature.elim .null floatJson), ("top_p", r.topP.elim .null floatJson),
    ("stop", r.stopJson), ("stream", .bool r.stream), ("user", .ofOption r.user)]

/-- `legacy_to_chat`; `why` is what `serde_json` says of a value it cannot read. -/
def legacyToChat (why : List (String × Json) → String) : Except ApiError ChatCompletionRequest :=
  if r.prompt.intoText.isEmpty then
    .error ⟨400, "prompt is required (for chat-style messages use /v1/chat/completions)"⟩
  else
    match decodeRequest r.chatMembers with
    | some chat => .ok chat
    | none => .error ⟨400, "invalid completion request: " ++ why r.chatMembers⟩

/-- The strings a client may mean by `stop`; `none` where it means none that could be used. -/
def stops : Option (Option (List String)) :=
  match r.stop with
  | none | some .null => some none
  | some (.string s) => some (some [s])
  | some (.array items) => (items.mapM string).map some
  | some _ => none

/-- The chat request a legacy one stands for. -/
def chat (stop : Option (List String)) : ChatCompletionRequest :=
  { ChatCompletionRequest.ofMessages r.model [.user r.prompt.intoText] with
    stream := r.stream
    temperature := r.temperature
    topP := r.topP
    maxTokens := r.maxTokens.map UInt32.toNat
    stop
    user := r.user }

variable {r}

theorem decode_stopJson : option (array string) r.stopJson = r.stops := by
  rw [stopJson.eq_def, stops.eq_def]
  rcases r.stop with - | v
  · rfl
  · rcases v with _ | _ | _ | s | items | _
    all_goals rfl

/-- Decoding what was written down gives the request that was meant. -/
theorem decodeRequest_chatMembers : decodeRequest r.chatMembers = r.stops.map r.chat := by
  have hmessages : array decodeMessage
      (.array [.object [("role", .string "user"), ("content", .string r.prompt.intoText)]]) =
        some [.user r.prompt.intoText] := by
    rfl
  have htokens : option (unsigned UInt32.size) (r.maxTokens.elim .null fun n ↦ Json.nat n.toNat) =
      some (r.maxTokens.map UInt32.toNat) := by
    rcases r.maxTokens with - | n
    · rfl
    · exact congrArg (Option.map some) (if_pos n.toNat_lt_size)
  have hfloat (m : Option ℚ) : option f64 (m.elim .null floatJson) = some m :=
    option_orNull (fun _ _ ↦ rfl) fun _ h ↦ by cases h
  have huser : option string (.ofOption r.user) = some r.user :=
    option_orNull (fun _ _ ↦ rfl) fun _ h ↦ by cases h
  have hextra : extraOf r.chatMembers = .empty := by
    rfl
  rw [decodeRequest, hextra]
  simp only [structField, chatMembers, BEq.rfl, List.filter_cons_of_pos, String.reduceBEq,
    Bool.false_eq_true, not_false_eq_true, List.filter_cons_of_neg, List.filter_nil, hmessages,
    hfloat, htokens, decode_stopJson, huser, Option.pure_def, Option.bind_eq_bind,
    Option.bind_some]
  rcases r.stops with - | stop
  · rfl
  · rfl

/-- **A legacy request is refused for want of a prompt, or for a `stop` that is no list of strings,
and else is the chat request of its prompt.** -/
theorem legacyToChat_eq (r : LegacyCompletionRequest) (why : List (String × Json) → String) :
    r.legacyToChat why =
      if r.prompt.intoText = "" then
        .error ⟨400, "prompt is required (for chat-style messages use /v1/chat/completions)"⟩
      else
        match r.stops with
        | some stop => .ok (r.chat stop)
        | none => .error ⟨400, "invalid completion request: " ++ why r.chatMembers⟩ := by
  rw [legacyToChat, decodeRequest_chatMembers]
  by_cases hprompt : r.prompt.intoText = ""
  · rw [if_pos (String.isEmpty_iff.2 hprompt), if_pos hprompt]
  · rw [if_neg fun hempty ↦ hprompt (String.isEmpty_iff.1 hempty), if_neg hprompt]
    rcases r.stops with - | stop
    · rfl
    · rfl

/-! ### The body -/

/-- `stop` as the chat API takes it. -/
def chatStop : Json → Json
  | .string s => .array [.string s]
  | v => v

/-- The fields a legacy body shares with a chat body. -/
def sharedFields : List String :=
  ["model", "max_tokens", "temperature", "top_p", "stop", "stream", "user"]

/-- A member of a legacy body in the chat body. -/
def chatMember (m : String × Json) : String × Json :=
  if m.1 = "stop" then (m.1, chatStop m.2) else m

variable (r) in
/-- The chat body of a legacy one: messages for the prompt, and the members both APIs know. -/
def chatBody (members : List (String × Json)) : List (String × Json) :=
  ("messages",
      .array [.object [("role", .string "user"), ("content", .string r.prompt.intoText)]]) ::
    (members.filter (·.1 ∈ sharedFields)).map chatMember

theorem chatMember_fst (m : String × Json) : (chatMember m).1 = m.1 := by
  rw [chatMember]
  split <;> rfl

/-- A field of the chat body is the one of the legacy body, translated. -/
theorem filter_chatBody (members : List (String × Json)) {name : String}
    (hname : name ∈ sharedFields) :
    (r.chatBody members).filter (·.1 == name) =
      (members.filter (·.1 == name)).map chatMember := by
  have hmessages : ("messages" == name) = false := by
    rw [beq_eq_false_iff_ne]
    rintro rfl
    exact absurd hname (by decide)
  rw [chatBody, List.filter_cons_of_neg (by rw [hmessages]; exact Bool.false_ne_true),
    List.filter_map, List.filter_filter]
  refine congrArg (List.map chatMember) (List.filter_congr fun m _ ↦ ?_)
  rw [Function.comp_apply, chatMember_fst]
  by_cases hm : m.1 = name
  · rw [hm]
    simp [hname]
  · rw [beq_eq_false_iff_ne.2 hm, Bool.false_and]

theorem mem_chatBody {members : List (String × Json)} {m : String × Json}
    (h : m ∈ r.chatBody members) : m.1 ∈ "messages" :: sharedFields := by
  rcases List.mem_cons.1 h with rfl | hmem
  · exact List.mem_cons_self
  · obtain ⟨m, hm, rfl⟩ := List.mem_map.1 hmem
    rw [chatMember_fst]
    exact List.mem_cons_of_mem _ (of_decide_eq_true (List.mem_filter.1 hm).2)

/-- A field of a chat request that a legacy one does not have is not in the chat body. -/
theorem structField_chatBody_of_notMem {α : Type} {decode : Json → Option α}
    (members : List (String × Json)) (i : ℕ) {name : String} (missing short : Option α)
    (hname : name ∉ "messages" :: sharedFields) :
    structField (.object (r.chatBody members)) i name missing short decode = missing := by
  have hnone : (r.chatBody members).filter (·.1 == name) = [] := by
    refine List.filter_eq_nil_iff.2 fun m hm heq ↦ hname ?_
    rw [← beq_iff_eq.1 heq]
    exact mem_chatBody hm
  rw [structField, hnone]

/-- A field the two share is read alike where its member is. -/
theorem structField_chatBody {α β : Type} {decode : Json → Option α} {decode' : Json → Option β}
    {members : List (String × Json)} {i j : ℕ} {name : String} {missing short : Option α}
    {missing' short' : Option β} {a : α} {b : Option β} (hname : name ∈ sharedFields)
    (h : structField (.object members) i name missing short decode = some a)
    (hmissing : missing = some a → missing' = b)
    (hdecode : ∀ m, m.1 = name → decode m.2 = some a → decode' (chatMember m).2 = b) :
    structField (.object (r.chatBody members)) j name missing' short' decode' = b := by
  rw [structField] at h ⊢
  rw [filter_chatBody members hname]
  rcases hmembers : members.filter (·.1 == name) with - | ⟨m, - | ⟨m', rest⟩⟩
  · rw [hmembers] at h ⊢
    exact hmissing h
  · rw [hmembers] at h ⊢
    have hm : m ∈ members.filter (·.1 == name) := hmembers ▸ List.mem_cons_self
    exact hdecode m (beq_iff_eq.1 (List.mem_filter.1 hm).2) h
  · rw [hmembers] at h
    cases h

/-- A field other than `stop` is read as it is. -/
theorem structField_chatBody_of_ne {α : Type} {decode : Json → Option α}
    {members : List (String × Json)} {i j : ℕ} {name : String} {missing short short' : Option α}
    {a : α} (hname : name ∈ sharedFields) (hstop : name ≠ "stop")
    (h : structField (.object members) i name missing short decode = some a) :
    structField (.object (r.chatBody members)) j name missing short' decode = some a := by
  refine structField_chatBody hname h id fun m hm hdecode ↦ ?_
  rwa [chatMember, if_neg (hm ▸ hstop)]

theorem chatStop_eq {v : Json} (h : option value v = some r.stop) : chatStop v = r.stopJson := by
  rw [stopJson.eq_def]
  rcases v with _ | _ | _ | s | items | members
  all_goals
    rw [← Option.some.inj h]
    rfl

theorem structField_messages (members : List (String × Json)) :
    structField (.object (r.chatBody members)) 1 "messages" none none (array decodeMessage) =
      some [.user r.prompt.intoText] := by
  have hrest : ((members.filter (·.1 ∈ sharedFields)).map chatMember).filter
      (·.1 == "messages") = [] := by
    refine List.filter_eq_nil_iff.2 fun m hm heq ↦ ?_
    obtain ⟨member, hmember, rfl⟩ := List.mem_map.1 hm
    rw [chatMember_fst, beq_iff_eq] at heq
    have hshared : member.1 ∈ sharedFields := of_decide_eq_true (List.mem_filter.1 hmember).2
    rw [heq] at hshared
    exact absurd hshared (by decide)
  rw [structField, chatBody, List.filter_cons_of_pos rfl, hrest]
  rfl

theorem structField_stop {members : List (String × Json)} {i : ℕ}
    (h : structField (.object members) i "stop" (some none) (some none) (option value) =
      some r.stop) :
    structField (.object (r.chatBody members)) 6 "stop" (some none) none (option (array string)) =
      r.stops := by
  refine structField_chatBody (by decide) h (fun hnone ↦ ?_) fun m hm hvalue ↦ ?_
  · rw [stops.eq_def, ← Option.some.inj hnone]
  · rw [chatMember, if_pos hm, chatStop_eq hvalue, decode_stopJson]

/-- Nothing is left over of the chat body. -/
theorem extraOf_chatBody (members : List (String × Json)) :
    extraOf (r.chatBody members) = .empty := by
  have hnone : (r.chatBody members).filter (·.1 ∉ requestFields) = [] := by
    refine List.filter_eq_nil_iff.2 fun m hm hout ↦ ?_
    have hfields : "messages" :: sharedFields ⊆ requestFields := by decide
    exact of_decide_eq_true hout (hfields (mem_chatBody hm))
  rw [extraOf, hnone]
  rfl

/-- A number of tokens that is read as `u32` is one. -/
theorem lt_of_structField {members : List (String × Json)} {i : ℕ} {name : String}
    {m : Option ℕ}
    (h : structField (.object members) i name (some none) (some none)
      (option (unsigned UInt32.size)) = some m) : ∀ n ∈ m, n < UInt32.size := by
  have hread (v : Json) (hv : option (unsigned UInt32.size) v = some m) :
      ∀ n ∈ m, n < UInt32.size := by
    intro n hn
    obtain rfl := Option.mem_def.1 hn
    rcases v with _ | _ | (k | _ | _) | _ | _ | _
    case number.posInt =>
      obtain ⟨k', hk, heq⟩ := Option.map_eq_some_iff.1 hv
      obtain ⟨hlt, hkk⟩ := Option.ite_none_right_eq_some.1 hk
      rw [← Option.some.inj heq, ← Option.some.inj hkk]
      exact hlt
    all_goals cases hv
  rw [structField] at h
  rcases hmembers : members.filter (·.1 == name) with - | ⟨v, - | ⟨v', rest⟩⟩
  · rw [hmembers] at h
    rw [← Option.some.inj h]
    exact fun n hn ↦ by cases hn
  · rw [hmembers] at h
    exact hread v.2 h
  · rw [hmembers] at h
    cases h

/-- **A legacy body is the chat body with messages for its prompt.** -/
theorem decodeRequest_chatBody {members : List (String × Json)}
    (h : decodeLegacy (.object members) = some r) :
    decodeRequest (r.chatBody members) = r.stops.map r.chat := by
  rw [decodeLegacy] at h
  obtain ⟨-, -, h⟩ := Option.bind_eq_some_iff.1 h
  obtain ⟨model, hmodel, h⟩ := Option.bind_eq_some_iff.1 h
  obtain ⟨prompt, -, h⟩ := Option.bind_eq_some_iff.1 h
  obtain ⟨maxTokens, htokens, h⟩ := Option.bind_eq_some_iff.1 h
  obtain ⟨temperature, htemperature, h⟩ := Option.bind_eq_some_iff.1 h
  obtain ⟨topP, htopP, h⟩ := Option.bind_eq_some_iff.1 h
  obtain ⟨stop, hstop, h⟩ := Option.bind_eq_some_iff.1 h
  obtain ⟨stream, hstream, h⟩ := Option.bind_eq_some_iff.1 h
  obtain ⟨user, huser, h⟩ := Option.bind_eq_some_iff.1 h
  have hr := Option.some.inj h
  have hmodel' : structField (.object (r.chatBody members)) 0 "model" none none string =
      some r.model := by
    rw [← hr]
    exact structField_chatBody_of_ne (by decide) (by decide) hmodel
  have hstream' : structField (.object (r.chatBody members)) 2 "stream" (some false) none bool =
      some r.stream := by
    rw [← hr]
    exact structField_chatBody_of_ne (by decide) (by decide) hstream
  have htemperature' : structField (.object (r.chatBody members)) 3 "temperature" (some none) none
      (option f64) = some r.temperature := by
    rw [← hr]
    exact structField_chatBody_of_ne (by decide) (by decide) htemperature
  have htopP' : structField (.object (r.chatBody members)) 4 "top_p" (some none) none
      (option f64) = some r.topP := by
    rw [← hr]
    exact structField_chatBody_of_ne (by decide) (by decide) htopP
  have htokens' : structField (.object (r.chatBody members)) 5 "max_tokens" (some none) none
      (option (unsigned UInt32.size)) = some (r.maxTokens.map UInt32.toNat) := by
    have hsmall : (maxTokens.map UInt32.ofNat).map UInt32.toNat = maxTokens := by
      have hlt := lt_of_structField htokens
      rcases maxTokens with - | n
      · rfl
      · exact congrArg some (UInt32.toNat_ofNat_of_lt' (hlt n rfl))
    rw [← hr, hsmall]
    exact structField_chatBody_of_ne (by decide) (by decide) htokens
  have hstop' : structField (.object (r.chatBody members)) 6 "stop" (some none) none
      (option (array string)) = r.stops := by
    refine structField_stop (i := 5) ?_
    rw [← hr]
    exact hstop
  have huser' : structField (.object (r.chatBody members)) 9 "user" (some none) none
      (option string) = some r.user := by
    rw [← hr]
    exact structField_chatBody_of_ne (by decide) (by decide) huser
  have hother (i : ℕ) {name : String} {α : Type} (decode : Json → Option (Option α))
      (hname : name ∉ "messages" :: sharedFields) :
      structField (.object (r.chatBody members)) i name (some none) none decode = some none :=
    structField_chatBody_of_notMem members i _ _ hname
  rw [decodeRequest, extraOf_chatBody]
  simp only [hmodel', structField_messages, hstream', htemperature', htopP', htokens', hstop',
    huser', hother 7 _ (by decide : "presence_penalty" ∉ _),
    hother 8 _ (by decide : "frequency_penalty" ∉ _), hother 10 _ (by decide : "tools" ∉ _),
    hother 11 _ (by decide : "tool_choice" ∉ _), Option.pure_def, Option.bind_eq_bind,
    Option.bind_some]
  rcases r.stops with - | stop
  · rfl
  · rfl

end LegacyCompletionRequest

/-! ### The answer -/

/-- One choice of a text completion. -/
def textChoice (text : Option String) (index : ℕ) (finishReason : Option String) : Json :=
  .object [("text", .string (text.getD "")), ("index", Json.nat index), ("logprobs", .null),
    ("finish_reason", .ofOption finishReason)]

/-- `chat_to_text_completion`. -/
def chatToTextCompletion (response : ChatCompletionResponse) : Json :=
  .object [("id", .string response.id), ("object", .string "text_completion"),
    ("created", Json.nat response.created), ("model", .string response.model),
    ("choices", Json.list (fun c : Choice ↦ textChoice c.message.content c.index c.finishReason)
      response.choices),
    ("usage", response.usage.elim .null Usage.json)]

/-- A chunk of a stream as a text completion. -/
def chunkToTextCompletion (chunk : StreamChunk) : Json :=
  .object [("id", .string chunk.id), ("object", .string "text_completion"),
    ("created", Json.nat chunk.created), ("model", .string chunk.model),
    ("choices", Json.list
      (fun c : StreamChoice ↦ textChoice c.delta.content c.index c.finishReason) chunk.choices)]

/-! ### The two handlers -/

/-- What a chat call is served with: the gateway, what lies around it on both paths, the principal,
and how the client polls a stream before it drops it. -/
structure ChatService where
  gateway : Gateway
  env : RouteEnv
  streamEnv : StreamEnv
  auth : Option AuthContext
  remoteIp : Option String
  dropMs : ℕ
  polls : List StreamPoll

/-- A call that was served: the upstream requests, what was recorded and accounted, and the answer,
a body or the events of a stream. -/
structure ServedChat where
  calls : List ProviderCall
  records : List RequestEvent
  accounted : List AccountOutcome
  answer : Except ErrorResponse (Json ⊕ List String)

/-- `ApiError::into_response`. -/
def ApiError.toResponse (e : ApiError) : ErrorResponse where
  status := e.status
  body :=
    .object [("error", .object [("message", .string e.message), ("type", .string "gateway_error")])]
  retryAfter := none

namespace ChatService

variable (service : ChatService)

/-- What `chat_completions` and `completions` have in common; they differ in what they make of a
response and of a chunk. -/
def serve (body : ChatCompletionResponse → Json) (data : StreamChunk → String)
    (request : ChatCompletionRequest) : ServedChat :=
  if request.stream then
    let run := service.gateway.routeStream service.streamEnv service.auth request service.remoteIp
    match answerTo run.result with
    | .ok stream =>
      let life := SseBody.life (fun chunk ↦ .ok (data chunk)) service.dropMs service.polls
        ⟨some stream, false⟩
      ⟨run.calls, [], life.accounted, .ok (.inr life.events)⟩
    | .error e => ⟨run.calls, [], [], .error e⟩
  else
    let run := service.gateway.route service.env request service.auth service.remoteIp
    ⟨run.calls, run.records, [], (answerTo run.result).map fun response ↦ .inl (body response)⟩

/-- `completions`; `render` is how a value is printed. -/
def completions (why : List (String × Json) → String) (render : Json → String)
    (request : LegacyCompletionRequest) : ServedChat :=
  match request.legacyToChat why with
  | .ok chat =>
    service.serve chatToTextCompletion (fun chunk ↦ render (chunkToTextCompletion chunk)) chat
  | .error e => ⟨[], [], [], .error e.toResponse⟩

end ChatService

/-! ### Served alike -/

section Alike

variable (body : ChatCompletionResponse → Json) (data data' : StreamChunk → String)

/-- Two events that are one, or that render one chunk. -/
def EventAlike (e e' : String) : Prop := e = e' ∨ ∃ chunk, e = data chunk ∧ e' = data' chunk

/-- Two answers that are one error, or made of one response or of one stream. -/
inductive AnswerAlike :
    Except ErrorResponse (Json ⊕ List String) → Except ErrorResponse (Json ⊕ List String) → Prop
  | error (e : ErrorResponse) : AnswerAlike (.error e) (.error e)
  | body (response : ChatCompletionResponse) :
    AnswerAlike (.ok (.inl (body response))) (.ok (.inl (chatToTextCompletion response)))
  | events {es es' : List String} (h : List.Forall₂ (EventAlike data data') es es') :
    AnswerAlike (.ok (.inr es)) (.ok (.inr es'))

/-- The same upstream requests, records and accounts, and answers alike. -/
structure ServedAlike (chat legacy : ServedChat) : Prop where
  calls : chat.calls = legacy.calls
  records : chat.records = legacy.records
  accounted : chat.accounted = legacy.accounted
  answer : AnswerAlike body data data' chat.answer legacy.answer

variable {body data data'} {dropMs : ℕ}

variable (data data') in
/-- A poll sends the chunk it finds, however it is rendered. -/
theorem SseBody.poll_render (elapsedMs : ℕ) (b : SseBody) :
    let now := b.poll (fun chunk ↦ .ok (data chunk)) elapsedMs
    let now' := b.poll (fun chunk ↦ .ok (data' chunk)) elapsedMs
    now.body = now'.body ∧ now.accounted = now'.accounted ∧
      List.Forall₂ (EventAlike data data') now.event.toList now'.event.toList := by
  have hsame (event : Option String) :
      List.Forall₂ (EventAlike data data') event.toList event.toList :=
    List.forall₂_same.2 fun _ _ ↦ .inl rfl
  obtain ⟨inner, errored⟩ := b
  rcases inner with - | stream
  · exact ⟨rfl, rfl, .nil⟩
  · rw [SseBody.poll, SseBody.poll]
    dsimp only
    rcases stream.pollNext elapsedMs with ⟨next, - | item, accounted⟩
    · exact ⟨rfl, rfl, hsame _⟩
    · rcases errored with - | -
      · rcases item with e | chunk
        · exact ⟨rfl, rfl, hsame _⟩
        · exact ⟨rfl, rfl, .cons (.inr ⟨chunk, rfl, rfl⟩) .nil⟩
      · exact ⟨rfl, rfl, hsame _⟩

variable (data data') in
/-- A body is read and accounted in the same way, however its chunks are rendered. -/
theorem SseBody.life_render (polls : List StreamPoll) (b : SseBody) :
    let life := b.life (fun chunk ↦ .ok (data chunk)) dropMs polls
    let life' := b.life (fun chunk ↦ .ok (data' chunk)) dropMs polls
    life.accounted = life'.accounted ∧
      List.Forall₂ (EventAlike data data') life.events life'.events := by
  induction polls generalizing b with
  | nil => exact ⟨rfl, .nil⟩
  | cons p polls ih =>
    rcases p with - | elapsedMs
    · exact ih b
    · obtain ⟨hbody, haccounted, hevent⟩ := b.poll_render data data' elapsedMs
      obtain ⟨hrest, hevents⟩ := ih (b.poll (fun chunk ↦ .ok (data chunk)) elapsedMs).body
      rw [SseBody.life, SseBody.life]
      dsimp only
      rw [← hbody, haccounted, hrest]
      exact ⟨rfl, List.rel_append hevent hevents⟩

/-- One request is served alike, however its answer is rendered. -/
theorem ChatService.serve_alike (service : ChatService) (request : ChatCompletionRequest) :
    ServedAlike body data data' (service.serve body data request)
      (service.serve chatToTextCompletion data' request) := by
  rw [ChatService.serve, ChatService.serve]
  split
  · dsimp only
    rcases answerTo (service.gateway.routeStream service.streamEnv service.auth request
      service.remoteIp).result with e | stream
    · exact ⟨rfl, rfl, rfl, .error e⟩
    · obtain ⟨haccounted, hevents⟩ := SseBody.life_render data data'
        service.polls ⟨some stream, false⟩
      exact ⟨rfl, rfl, haccounted, .events hevents⟩
  · dsimp only
    rcases answerTo (service.gateway.route service.env request service.auth
      service.remoteIp).result with e | response
    · exact ⟨rfl, rfl, rfl, .error e⟩
    · exact ⟨rfl, rfl, rfl, .body response⟩

end Alike

/-- A body of two prompts, with one string to stop at and a member no chat request has. -/
def joinedBody : List (String × Json) :=
  [("model", .string "gpt-4o"), ("prompt", .array [.string "Say", .string "hello"]),
    ("stop", .string "."), ("logprobs", Json.nat 5)]

/-- A gateway with nothing in the way. -/
def plainService : ChatService :=
  ⟨.oneModel, .plain, ⟨.plain, fun _ ↦ ⟨true, .ok [], 1⟩⟩, none, none, 0, []⟩

end Himadri
