import Himadri.Core.Json
import Himadri.Provider.Error

/-!
# The Anthropic provider

`AnthropicProvider`: the body it makes of a chat request, and what it makes of a response and of the
events of a stream. The clock and `Display` of a JSON value, which is how the arguments of a call
are carried, are arguments.
-/

namespace Himadri

/-- What the providers use of other libraries: the time, the text of a JSON value, and the ids
drawn. -/
structure ProviderEnv where
  now : ℕ
  render : Json → String
  uuid : ℕ → String

namespace Anthropic

/-- `map_finish_reason`. -/
def mapFinishReason (reason : String) : String :=
  if reason = "end_turn" then "stop"
  else if reason = "max_tokens" then "length"
  else if reason = "tool_use" then "tool_calls"
  else reason

/-- `Delta::default`. -/
def emptyDelta : Delta := ⟨none, none, none⟩

/-- `stream_chunk`. -/
def streamChunk (now : ℕ) (delta : Delta) (finishReason : Option String) (usage : Option Usage) :
    StreamChunk where
  id := ""
  object := "chat.completion.chunk"
  created := now
  model := ""
  choices := [⟨0, delta, finishReason⟩]
  usage
  systemFingerprint := none

/-! ### Requests -/

/-- `MessageContent::as_text`. -/
def asText : MessageContent → Option String
  | .text s => some s
  | .parts _ => none

/-- The system text after the messages: the last one with content decides. -/
def systemText (messages : List Message) : Option String :=
  messages.foldl (fun system m ↦
    match m.role, m.content with
    | .system, some content => asText content
    | _, _ => system) none

/-- The role of a message that is no system message. -/
def roleName : Role → String
  | .user => "user"
  | .assistant => "assistant"
  | _ => "user"

/-- A message that is no system message. -/
def messageJson (m : Message) : Json :=
  .object [("role", .string (roleName m.role)),
    ("content", .string ((m.content.map (·.flatText)).getD ""))]

/-- An OpenAI-shaped tool in Anthropic's schema. -/
def toolJson (tool : Tool) : Json :=
  .object [("name", .string tool.functionName), ("description", .ofOption tool.description),
    ("input_schema", tool.parameters.getD (.object [("type", .string "object")]))]

/-- `translate_tool_choice`. -/
def translateToolChoice : Json → Option Json
  | .string s =>
    if s = "auto" then some (.object [("type", .string "auto")])
    else if s = "required" then some (.object [("type", .string "any")])
    else if s = "none" then some (.object [("type", .string "none")])
    else none
  | .object obj =>
    (((Serde.member obj "function").bind (·.find "name")).bind (·.asStr)).map fun n ↦
      .object [("type", .string "tool"), ("name", .string n)]
  | _ => none

/-- The body with tools. -/
def withTools (body : Json) (request : ChatCompletionRequest) : Json :=
  match request.tools with
  | some tools =>
    (body.set "tools" (.array (tools.map toolJson))).setSome "tool_choice"
      (request.toolChoice.bind translateToolChoice)
  | none => body

/-- `AnthropicProvider::build_request_body`. -/
def buildRequestBody (request : ChatCompletionRequest) (stream : Bool) : Json :=
  let body : Json := .object [("model", .string request.model),
    ("messages", .array ((request.messages.filter (·.role != .system)).map messageJson)),
    ("stream", .bool stream), ("max_tokens", .nat (request.maxTokens.getD 4096))]
  let body := body.setSome "system" ((systemText request.messages).map .string)
  let body := body.setSome "temperature" (request.temperature.map fun q ↦ .number (.float q))
  let body := body.setSome "top_p" (request.topP.map fun q ↦ .number (.float q))
  let body := body.setSome "stop_sequences" (request.stop.map fun s ↦ .array (s.map .string))
  withTools body request

/-! ### Responses -/

/-- `c["type"] == kind`. -/
def isKind (kind : String) (c : Json) : Bool := (c.get "type").isText kind

/-- `c["text"].as_str()`. -/
def textOf (c : Json) : Option String := (c.get "text").asStr

/-- The text of the blocks. -/
def blocksText (blocks : List Json) : String :=
  String.join ((blocks.filter (isKind "text")).filterMap textOf)

/-- A `tool_use` block as a tool call. -/
def toolCall (render : Json → String) (block : Json) : ToolCall where
  id := (block.get "id").asStr.getD ""
  toolType := "function"
  functionName := (block.get "name").asStr.getD ""
  arguments := render (block.get "input")

/-- The tool calls of the blocks. -/
def blocksCalls (render : Json → String) (blocks : List Json) : List ToolCall :=
  (blocks.filter (isKind "tool_use")).map (toolCall render)

/-- The usage of a response. -/
def responseUsage (u : List (String × Json)) : Except Panic Usage := do
  let input ← mapIndex u "input_tokens"
  let output ← mapIndex u "output_tokens"
  let total ← addU32 (tokenCount input) (tokenCount output)
  return ⟨tokenCount input, tokenCount output, total⟩

/-- `AnthropicProvider::parse_response`. -/
def parseResponse (env : ProviderEnv) (response : Json) :
    Except Panic (Except ProviderError ChatCompletionResponse) := do
  let blocks := (response.get "content").asArray
  let message : ResponseMessage :=
    { role := .assistant
      content := (blocks.map blocksText).filter (!·.isEmpty)
      toolCalls := (blocks.map (blocksCalls env.render)).filter (!·.isEmpty) }
  let usage ← (response.get "usage").asObject.mapM responseUsage
  return .ok
    { id := (response.get "id").asStr.getD ""
      object := "chat.completion"
      created := env.now
      model := (response.get "model").asStr.getD ""
      choices := [⟨0, message, (response.get "stop_reason").asStr.map mapFinishReason⟩]
      usage
      systemFingerprint := none }

/-! ### Streams -/

/-- The usage of a `message_delta`. -/
def deltaUsage (inputTokens : ℕ) (u : List (String × Json)) : Except Panic Usage := do
  let output ← mapIndex u "output_tokens"
  let total ← addU32 inputTokens (tokenCount output)
  return ⟨inputTokens, tokenCount output, total⟩

/-- `AnthropicProvider::parse_stream_event`: the chunk, and `input_tokens` after it. -/
def parseStreamEvent (now : ℕ) (eventType : String) (data : Json) (inputTokens : ℕ) :
    Except Panic (Option (Except ProviderError StreamChunk) × ℕ) :=
  if eventType = "message_start" then
    let message := data.get "message"
    let chunk := streamChunk now { emptyDelta with role := some .assistant } none none
    .ok (some (.ok { chunk with
      id := (message.get "id").asStr.getD "", model := (message.get "model").asStr.getD "" }),
      tokenCount ((message.get "usage").get "input_tokens"))
  else if eventType = "content_block_delta" then
    let text := ((data.get "delta").get "text").asStr.getD ""
    let content := if text.isEmpty then none else some text
    .ok (some (.ok (streamChunk now { emptyDelta with content } none none)), inputTokens)
  else if eventType = "message_delta" then do
    let stopReason := ((data.get "delta").get "stop_reason").asStr.map mapFinishReason
    let usage ← (data.get "usage").asObject.mapM (deltaUsage inputTokens)
    return (some (.ok (streamChunk now emptyDelta stopReason usage)), inputTokens)
  else .ok (none, inputTokens)

/-- The chunks of the events, from an `input_tokens`: the `filter_map` of `complete_stream` over the
events whose data is JSON. -/
def streamChunks (now : ℕ) (inputTokens : ℕ) :
    List (String × Json) → Except Panic (List (Except ProviderError StreamChunk))
  | [] => .ok []
  | (eventType, data) :: events => do
    let (chunk, inputTokens) ← parseStreamEvent now eventType data inputTokens
    let chunks ← streamChunks now inputTokens events
    return chunk.toList ++ chunks

end Anthropic

end Himadri
