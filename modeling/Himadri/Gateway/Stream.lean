import Himadri.Gateway.Route

/-!
# The streaming path

`route_stream`, and the recorder and wrapper around the stream it hands out. A provider's stream is
the items it yields; the wrapper runs the response guardrails at its end, after everything was
delivered, and only logs what they say.
-/

namespace Himadri

/-- The items a provider's stream yields before it ends. -/
abbrev ProviderStream := List (Except ProviderError StreamChunk)

/-- What a request to `route_stream` meets. -/
structure StreamEnv extends RequestEnv where
  trial : ℕ → Trial ProviderStream

/-! ### The recorder -/

/-- `StreamUsageRecorder`, but for the moment it started at. -/
structure StreamUsageRecorder where
  provider : String
  model : String
  apiKeyId : Option String
  usage : Option Usage
  error : Option String
  recorded : Bool
  deriving DecidableEq

namespace StreamUsageRecorder

variable (recorder : StreamUsageRecorder)

/-- `observe_chunk`. -/
def observeChunk (chunk : StreamChunk) : StreamUsageRecorder :=
  { recorder with usage := chunk.usage.or recorder.usage }

/-- `observe_error`. -/
def observeError (e : ProviderError) : StreamUsageRecorder :=
  { recorder with error := some e.display }

/-- `finish`, with what it gives to `record_accounting`. -/
def finish (elapsedMs : ℕ) : StreamUsageRecorder × List AccountOutcome :=
  if recorder.recorded then (recorder, [])
  else
    ({ recorder with recorded := true },
      [⟨recorder.provider, recorder.model, recorder.apiKeyId, recorder.usage, recorder.error,
        elapsedMs⟩])

end StreamUsageRecorder

/-- `DEFAULT_STREAM_BUFFER_LIMIT`. -/
def defaultStreamBufferLimit : ℕ := 1024 * 1024

/-- `GuardrailStream`: the wrapper, with what is left of the stream inside. -/
structure GuardrailStream where
  inner : ProviderStream
  buffer : String
  bufferLimit : ℕ
  request : ChatCompletionRequest
  auth : Option AuthContext
  guardrailsRan : Bool
  recorder : StreamUsageRecorder

namespace GuardrailStream

variable (stream : GuardrailStream)

/-- The buffer after a chunk. -/
def push (chunk : StreamChunk) : String :=
  if stream.buffer.utf8ByteSize < stream.bufferLimit then
    stream.buffer ++ String.join (chunk.choices.filterMap (·.delta.content))
  else stream.buffer

/-- `poll_next`: the wrapper afterwards, the item it yields, and what it accounts. -/
def pollNext (elapsedMs : ℕ) :
    GuardrailStream × Option (Except ProviderError StreamChunk) × List AccountOutcome :=
  match stream.inner with
  | .ok chunk :: rest =>
    ({ stream with
        inner := rest
        buffer := stream.push chunk
        recorder := stream.recorder.observeChunk chunk }, some (.ok chunk), [])
  | .error e :: rest =>
    ({ stream with inner := rest, recorder := stream.recorder.observeError e }, some (.error e), [])
  | [] =>
    ({ stream with
        guardrailsRan := stream.guardrailsRan || !stream.buffer.isEmpty
        recorder := (stream.recorder.finish elapsedMs).1 }, none,
      (stream.recorder.finish elapsedMs).2)

/-- What is accounted over the life of the wrapper: `polls` times polled, and then dropped. The
clock is read by the number of polls left. -/
def accounts (elapsedMs : ℕ → ℕ) : (polls : ℕ) → GuardrailStream → List AccountOutcome
  | 0, stream => (stream.recorder.finish (elapsedMs 0)).2
  | polls + 1, stream =>
    (stream.pollNext (elapsedMs (polls + 1))).2.2 ++
      accounts elapsedMs polls (stream.pollNext (elapsedMs (polls + 1))).1

end GuardrailStream

/-! ### The call -/

/-- One call of `route_stream`. -/
structure StreamRun where
  result : Except GatewayError GuardrailStream
  /-- The events given to the audit log. -/
  audits : List StreamStartEvent
  /-- The `Provider::complete_stream` calls. -/
  calls : List ProviderCall

/-- The mapping of `route_stream`, which keeps the gateway's own failures apart. -/
def AttemptError.toGatewayError : AttemptError → GatewayError
  | .provider e => e.toGatewayError
  | .circuitOpen p => .circuitOpen p
  | .providerNotFound p => .providerNotFound p
  | .apiKey e => e
  | .noTargets => .internal "No targets produced a stream"

namespace Gateway

variable (g : Gateway) (env : StreamEnv) (auth : Option AuthContext)

/-- The wrapper `route_stream` puts around a stream. -/
def wrapStream (request : ChatCompletionRequest) (target : Target) (stream : ProviderStream) :
    GuardrailStream where
  inner := stream
  buffer := ""
  bufferLimit := defaultStreamBufferLimit
  request
  auth
  guardrailsRan := false
  recorder :=
    { provider := target.provider
      model := request.model
      apiKeyId := auth.bind (·.keyId)
      usage := none
      error := none
      recorded := false }

/-- `route_stream` from the selection on. -/
def openStream (ctx : PluginContext) : StreamRun :=
  match g.selectTargets env.selection ctx.request auth with
  | .error e => ⟨.error e, [], []⟩
  | .ok ordered =>
    match g.failover env.vars (fun t client key ↦ ProviderCall.mk t client ctx.request key) ordered
      env.trial 0 with
    | none => ⟨.error (.internal "No targets configured"), [], []⟩
    | some e =>
      match e.result with
      | .error attemptError => ⟨.error attemptError.toGatewayError, [], e.calls⟩
      | .ok stream =>
        { result := .ok (wrapStream auth ctx.request e.target stream)
          audits :=
            [{ auth := auth
               requestId := ctx.requestId
               provider := e.target.provider
               model := ctx.request.model
               messages := auditMessages ctx.request }]
          calls := e.calls }

/-- `Gateway::route_stream`. -/
def routeStream (request : ChatCompletionRequest) (remoteIp : Option String) : StreamRun :=
  match g.prepareRequest env.toRequestEnv request auth remoteIp with
  | .error e => ⟨.error e, [], []⟩
  | .ok ctx => g.openStream env auth ctx

end Gateway

end Himadri
