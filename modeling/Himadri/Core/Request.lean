import Himadri.Core.KeyMap
import Mathlib.Data.Rat.Defs

/-!
# Requests, responses and principals

The chat request and response of `himadri-core`, raw JSON as they carry it, and the principal a
request is made by. An `f32` is an exact rational.
-/

namespace Himadri

/-! ### Raw JSON -/

/-- `serde_json::Number`: an integer of `u64`, a negative one of `i64`, or an `f64`. -/
inductive JsonNumber
  | posInt (n : ℕ)
  | negInt (n : ℤ)
  | float (q : ℚ)
  deriving DecidableEq

/-- `serde_json::Value`; the members of an object are ordered by their names. -/
inductive Json
  | null
  | bool (b : Bool)
  | number (n : JsonNumber)
  | string (s : String)
  | array (items : List Json)
  | object (members : List (String × Json))

/-! ### Messages -/

/-- `Role`. -/
inductive Role
  | system
  | user
  | assistant
  | tool
  deriving DecidableEq

/-- The role as `Debug` prints it, in lower case. -/
def Role.lowercase : Role → String
  | .system => "system"
  | .user => "user"
  | .assistant => "assistant"
  | .tool => "tool"

/-- `ContentPart`. -/
inductive ContentPart
  | text (text : String)
  | imageUrl (url : String) (detail : Option String)
  deriving DecidableEq

/-- `MessageContent`. -/
inductive MessageContent
  | text (text : String)
  | parts (parts : List ContentPart)
  deriving DecidableEq

/-- `MessageContent::flat_text`: the text, or the text parts run together. -/
def MessageContent.flatText : MessageContent → String
  | .text s => s
  | .parts ps =>
    String.join (ps.filterMap fun
      | .text s => some s
      | .imageUrl _ _ => none)

/-- `ToolCall`. -/
structure ToolCall where
  id : String
  toolType : String
  functionName : String
  arguments : String
  deriving DecidableEq

/-- `Message`. -/
structure Message where
  role : Role
  content : Option MessageContent
  name : Option String
  toolCalls : Option (List ToolCall)
  toolCallId : Option String
  deriving DecidableEq

/-- `Message::user`. -/
def Message.user (content : String) : Message where
  role := .user
  content := some (.text content)
  name := none
  toolCalls := none
  toolCallId := none

/-! ### Requests and responses -/

/-- `Tool`. -/
structure Tool where
  toolType : String
  functionName : String
  description : Option String
  parameters : Option Json

/-- `ChatCompletionRequest`. -/
structure ChatCompletionRequest where
  model : String
  messages : List Message
  stream : Bool
  temperature : Option ℚ
  topP : Option ℚ
  maxTokens : Option ℕ
  stop : Option (List String)
  presencePenalty : Option ℚ
  frequencyPenalty : Option ℚ
  user : Option String
  tools : Option (List Tool)
  toolChoice : Option Json
  extra : KeyMap String Json

/-- A request of one model with the messages given, every other field at its default. -/
def ChatCompletionRequest.ofMessages (model : String) (messages : List Message) :
    ChatCompletionRequest where
  model
  messages
  stream := false
  temperature := none
  topP := none
  maxTokens := none
  stop := none
  presencePenalty := none
  frequencyPenalty := none
  user := none
  tools := none
  toolChoice := none
  extra := .empty

/-- `Usage`. -/
structure Usage where
  promptTokens : ℕ
  completionTokens : ℕ
  totalTokens : ℕ
  deriving DecidableEq

/-- `ResponseMessage`. -/
structure ResponseMessage where
  role : Role
  content : Option String
  toolCalls : Option (List ToolCall)
  deriving DecidableEq

/-- `Choice`. -/
structure Choice where
  index : ℕ
  message : ResponseMessage
  finishReason : Option String
  deriving DecidableEq

/-- `ChatCompletionResponse`. -/
structure ChatCompletionResponse where
  id : String
  object : String
  created : ℕ
  model : String
  choices : List Choice
  usage : Option Usage
  systemFingerprint : Option String
  deriving DecidableEq

/-- A response of one choice, as an assistant gives it. -/
def ChatCompletionResponse.ofText (id model text : String) : ChatCompletionResponse where
  id
  object := "chat.completion"
  created := 0
  model
  choices := [⟨0, ⟨.assistant, some text, none⟩, some "stop"⟩]
  usage := none
  systemFingerprint := none

/-- `EmbeddingInput`. -/
inductive EmbeddingInput
  | single (input : String)
  | multiple (inputs : List String)
  deriving DecidableEq

/-- `EmbeddingRequest`. -/
structure EmbeddingRequest where
  model : String
  input : EmbeddingInput
  encodingFormat : Option String
  dimensions : Option ℕ
  user : Option String
  extra : KeyMap String Json

/-- `EmbeddingData`. -/
structure EmbeddingData where
  object : String
  index : ℕ
  embedding : List ℚ
  deriving DecidableEq

/-- `EmbeddingUsage`. -/
structure EmbeddingUsage where
  promptTokens : ℕ
  totalTokens : ℕ
  deriving DecidableEq

/-- `EmbeddingResponse`. -/
structure EmbeddingResponse where
  object : String
  data : List EmbeddingData
  model : String
  usage : EmbeddingUsage
  deriving DecidableEq

/-- `FunctionCallDelta`. -/
structure FunctionCallDelta where
  name : Option String
  arguments : Option String
  deriving DecidableEq

/-- `ToolCallDelta`. -/
structure ToolCallDelta where
  index : ℕ
  id : Option String
  toolType : Option String
  function : Option FunctionCallDelta
  deriving DecidableEq

/-- `Delta`. -/
structure Delta where
  role : Option Role
  content : Option String
  toolCalls : Option (List ToolCallDelta)
  deriving DecidableEq

/-- `StreamChoice`. -/
structure StreamChoice where
  index : ℕ
  delta : Delta
  finishReason : Option String
  deriving DecidableEq

/-- `StreamChunk`. -/
structure StreamChunk where
  id : String
  object : String
  created : ℕ
  model : String
  choices : List StreamChoice
  usage : Option Usage
  systemFingerprint : Option String
  deriving DecidableEq

/-! ### Principals -/

/-- `AuthScope`. -/
inductive AuthScope
  | admin
  | readOnly
  | apiKey
  deriving DecidableEq

/-- `RateLimitOverride`. -/
structure RateLimitOverride where
  requestsPerSecond : Option ℕ
  burstSize : Option ℕ
  deriving DecidableEq

/-- `AuthContext`. -/
structure AuthContext where
  /-- What the principal is called; never its secret. -/
  apiKey : String
  keyId : Option String
  scope : AuthScope
  orgId : Option String
  teamId : Option String
  userId : Option String
  rateLimitOverride : Option RateLimitOverride
  roles : List String
  budgetLimitUsd : Option ℚ
  deriving DecidableEq

namespace AuthContext

/-- `AuthContext::default`. -/
def default : AuthContext where
  apiKey := ""
  keyId := none
  scope := .apiKey
  orgId := none
  teamId := none
  userId := none
  rateLimitOverride := none
  roles := []
  budgetLimitUsd := none

/-- `AuthContext::anonymous`: the principal of a gateway without authentication. -/
def anonymous : AuthContext := { default with apiKey := "anonymous", scope := .admin }

/-- `AuthContext::has_role`. -/
def hasRole (auth : AuthContext) (role : String) : Bool := auth.roles.contains role

/-- `AuthContext::has_any_role`. -/
def hasAnyRole (auth : AuthContext) (roles : List String) : Bool := roles.any auth.hasRole

end AuthContext

end Himadri
