import Himadri.Core.Request

/-!
# What is recorded of a request

The events `RequestAuditor` takes, the audit form of a request, and the text of a response as the
guardrails and the audit log see it.
-/

namespace Himadri

/-- `AuditStatus`, the two that requests are recorded with. -/
inductive AuditStatus
  | success
  | error
  deriving DecidableEq

/-- `AuditMessage`. -/
structure AuditMessage where
  role : String
  content : String
  deriving DecidableEq

/-- `RequestEvent`. -/
structure RequestEvent where
  auth : Option AuthContext
  requestId : String
  provider : String
  model : String
  messages : List AuditMessage
  responseText : Option String
  latencyMs : ℕ
  tokensPrompt : ℕ
  tokensCompletion : ℕ
  tokensTotal : ℕ
  status : AuditStatus
  error : Option String
  guardrailActions : List String
  stream : Bool
  apiKeyId : Option String
  deriving DecidableEq

/-- `AccountOutcome`. -/
structure AccountOutcome where
  provider : String
  model : String
  apiKeyId : Option String
  usage : Option Usage
  error : Option String
  latencyMs : ℕ
  deriving DecidableEq

/-- The event `route_stream` logs when a stream starts: the fields of `AuditEvent` it sets. -/
structure StreamStartEvent where
  auth : Option AuthContext
  requestId : String
  provider : String
  model : String
  messages : List AuditMessage
  deriving DecidableEq

/-- `audit_messages`. -/
def auditMessages (request : ChatCompletionRequest) : List AuditMessage :=
  request.messages.map fun m ↦ ⟨m.role.lowercase, (m.content.map (·.flatText)).getD ""⟩

/-- `extract_response_text`. -/
def extractResponseText (response : ChatCompletionResponse) : Option String :=
  match response.choices.filterMap (·.message.content) with
  | [] => none
  | parts => some (String.join parts)

/-- `redact_response_text`. -/
def redactResponseText (response : ChatCompletionResponse) (redacted : String) :
    ChatCompletionResponse :=
  { response with
    choices := response.choices.map fun c ↦
      { c with message := { c.message with content := some redacted } } }

/-- The token counts of a response, zero where it has no usage. -/
def usageOf (response : ChatCompletionResponse) : Usage := response.usage.getD ⟨0, 0, 0⟩

/-- An event as every exit of `route` begins it: who asked, for what, and what was sent. -/
def RequestEvent.start (auth : Option AuthContext) (requestId provider : String)
    (request : ChatCompletionRequest) (latencyMs : ℕ) : RequestEvent where
  auth
  requestId
  provider
  model := request.model
  messages := auditMessages request
  responseText := none
  latencyMs
  tokensPrompt := 0
  tokensCompletion := 0
  tokensTotal := 0
  status := .error
  error := none
  guardrailActions := []
  stream := request.stream
  apiKeyId := auth.bind (·.keyId)

/-- The event of a response that was returned. -/
def RequestEvent.succeed (event : RequestEvent) (text : Option String) (usage : Usage) :
    RequestEvent :=
  { event with
    responseText := text
    tokensPrompt := usage.promptTokens
    tokensCompletion := usage.completionTokens
    tokensTotal := usage.totalTokens
    status := .success }

end Himadri
