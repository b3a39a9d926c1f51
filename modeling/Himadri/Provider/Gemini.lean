import Himadri.Provider.Anthropic

/-!
# The Gemini provider

`GeminiProvider`: the body it makes of a chat request, and what it makes of a response and of the
events of a stream.
-/

namespace Himadri

namespace Gemini

/-- `map_finish_reason`. -/
def mapFinishReason (reason : String) : String :=
  if reason = "STOP" then "stop" else if reason = "MAX_TOKENS" then "length" else reason

/-! ### Requests -/

/-- A text as the parts of a content. -/
def textParts (text : String) : Json := .array [.object [("text", .string text)]]

/-- The role of a message that is no system message. -/
def roleName : Role → String
  | .assistant => "model"
  | _ => "user"

/-- A message: a system message has no content here, nor has one without content. -/
def contentJson (m : Message) : Option Json :=
  match m.role with
  | .system => none
  | _ => m.content.map fun content ↦
    .object [("role", .string (roleName m.role)), ("parts", textParts content.flatText)]

/-- `system_instruction`: the text of the first system message. -/
def systemInstruction (messages : List Message) : Option Json :=
  (((messages.find? (·.role == .system)).bind (·.content)).bind Anthropic.asText).map fun text ↦
    .object [("parts", textParts text)]

/-- An OpenAI-shaped tool as a function declaration. -/
def declaration (tool : Tool) : Json :=
  ((Json.object [("name", .string tool.functionName)]).setSome "description"
    (tool.description.map .string)).setSome "parameters" tool.parameters

/-- `translate_tool_choice_mode`. -/
def translateToolChoiceMode : Json → Option String
  | .string s =>
    if s = "auto" then some "AUTO"
    else if s = "required" then some "ANY"
    else if s = "none" then some "NONE"
    else none
  | .object _ => some "ANY"
  | _ => none

/-- The body with tools. -/
def withTools (body : Json) (request : ChatCompletionRequest) : Json :=
  match request.tools with
  | some tools =>
    (body.set "tools" (.array [.object [("functionDeclarations",
      .array (tools.map declaration))]])).setSome "toolConfig"
        ((request.toolChoice.bind translateToolChoiceMode).map fun mode ↦
          .object [("functionCallingConfig", .object [("mode", .string mode)])])
  | none => body

/-- `generation_config`. -/
def generationConfig (request : ChatCompletionRequest) : Json :=
  let config : Json := .object []
  let config := config.setSome "temperature" (request.temperature.map fun q ↦ .number (.float q))
  let config := config.setSome "topP" (request.topP.map fun q ↦ .number (.float q))
  let config := config.setSome "maxOutputTokens" (request.maxTokens.map .nat)
  config.setSome "stopSequences" (request.stop.map fun s ↦ .array (s.map .string))

/-- `GeminiProvider::build_request_body`. -/
def buildRequestBody (request : ChatCompletionRequest) : Json :=
  let body : Json := .object [("contents", .array (request.messages.filterMap contentJson)),
    ("generationConfig", generationConfig request)]
  withTools (body.setSome "systemInstruction" (systemInstruction request.messages)) request

/-! ### Responses -/

/-- The text of the parts. -/
def partsText (parts : List Json) : String :=
  String.join (parts.filterMap Anthropic.textOf)

/-- A `functionCall` as a tool call, with an id drawn for it. -/
def toolCall (env : ProviderEnv) (call : Json × ℕ) : ToolCall where
  id := "call-" ++ env.uuid call.2
  toolType := "function"
  functionName := (call.1.get "name").asStr.getD ""
  arguments := env.render (call.1.get "args")

/-- The tool calls of the parts. -/
def partsCalls (env : ProviderEnv) (parts : List Json) : List ToolCall :=
  (parts.filterMap (·.find "functionCall")).zipIdx.map (toolCall env)

/-- The usage of a response or an event. -/
def usageOf (u : List (String × Json)) : Except Panic Usage := do
  let prompt ← mapIndex u "promptTokenCount"
  let candidates ← mapIndex u "candidatesTokenCount"
  let total ← mapIndex u "totalTokenCount"
  return ⟨tokenCount prompt, tokenCount candidates, tokenCount total⟩

/-- What a response makes of its candidate. -/
def candidateMessage (env : ProviderEnv) (candidate : Json) : ResponseMessage :=
  let parts := ((candidate.get "content").get "parts").asArray
  { role := .assistant
    content := (parts.map partsText).filter (!·.isEmpty)
    toolCalls := (parts.map (partsCalls env)).filter (!·.isEmpty) }

/-- The first candidate. -/
def firstCandidate (v : Json) : Option Json := (v.get "candidates").asArray.bind (·.head?)

/-- `GeminiProvider::parse_response`. -/
def parseResponse (env : ProviderEnv) (response : Json) (model : String) :
    Except Panic (Except ProviderError ChatCompletionResponse) :=
  match firstCandidate response with
  | none => .ok (.error (.internal "No candidates in response"))
  | some candidate => do
    let usage ← (response.get "usageMetadata").asObject.mapM usageOf
    return .ok
      { id := "gemini-" ++ env.uuid 0
        object := "chat.completion"
        created := env.now
        model
        choices := [⟨0, candidateMessage env candidate,
          (candidate.get "finishReason").asStr.map mapFinishReason⟩]
        usage
        systemFingerprint := none }

/-! ### Streams -/

/-- The text and the finish reason that a chunk takes of a candidate. -/
def candidateDelta (candidate : Json) : Option String × Option String :=
  ((((candidate.get "content").get "parts").asArray.bind (·.head?)).bind Anthropic.textOf,
    (candidate.get "finishReason").asStr.map mapFinishReason)

/-- `GeminiProvider::parse_stream_chunk`. -/
def parseStreamChunk (env : ProviderEnv) (chunk : Json) (model : String) :
    Except Panic (Except ProviderError StreamChunk) := do
  let (content, finishReason) := ((firstCandidate chunk).map candidateDelta).getD (none, none)
  let usage ← (chunk.get "usageMetadata").asObject.mapM usageOf
  return .ok
    { id := "gemini-" ++ env.uuid 0
      object := "chat.completion.chunk"
      created := env.now
      model
      choices := [⟨0, ⟨none, content, none⟩, finishReason⟩]
      usage
      systemFingerprint := none }

/-- A chunk of one of the candidates of an event. -/
def singleChunk (chunk candidate : Json) : Json :=
  .object [("candidates", .array [candidate]), ("usageMetadata", chunk.get "usageMetadata")]

/-- The chunks of an event of `complete_stream`: one of each candidate. -/
def eventChunks (env : ProviderEnv) (model : String) (chunk : Json) :
    Except Panic (List (Except ProviderError StreamChunk)) :=
  ((chunk.get "candidates").asArray.getD []).mapM fun candidate ↦
    parseStreamChunk env (singleChunk chunk candidate) model

/-- The chunks of the events. -/
def streamChunks (env : ProviderEnv) (model : String) (events : List Json) :
    Except Panic (List (Except ProviderError StreamChunk)) :=
  (events.mapM (eventChunks env model)).map (·.flatten)

end Gemini

end Himadri
