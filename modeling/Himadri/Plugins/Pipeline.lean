import Himadri.Core.Request
import Mathlib.Tactic.Common

/-!
# The plugin pipeline

`PluginContext`, the plugins of a request and the manager that runs them. A plugin is what it does
to the context and how it ends; a plugin with state of its own is another function at another
request. Request ids are fresh and given.
-/

namespace Himadri

/-- `PluginContext`. The latency is in milliseconds. -/
structure PluginContext where
  requestId : String
  request : ChatCompletionRequest
  auth : Option AuthContext
  metadata : KeyMap String Json
  provider : Option String
  latency : Option ℕ
  tokensUsed : Option ℕ
  error : Option String
  response : Option ChatCompletionResponse
  responseText : Option String
  responseChunks : List String
  remoteIp : Option String

/-- `PluginContext::from_request`. -/
def PluginContext.fromRequest (requestId : String) (request : ChatCompletionRequest)
    (auth : Option AuthContext) : PluginContext where
  requestId
  request
  auth
  metadata := .empty
  provider := none
  latency := none
  tokensUsed := none
  error := none
  response := none
  responseText := none
  responseChunks := []
  remoteIp := none

/-- `RejectKind`. -/
inductive RejectKind
  | badRequest
  | rateLimited (retryAfterSecs : ℕ)
  | budgetExceeded
  | forbidden
  deriving DecidableEq

/-- `PluginError`. -/
inductive PluginError
  | rejected (name reason : String) (kind : RejectKind)
  | internal (message : String)
  deriving DecidableEq

/-- The error's message. -/
def PluginError.display : PluginError → String
  | .rejected name reason _ => "plugin " ++ name ++ " rejected request: " ++ reason
  | .internal message => "plugin error: " ++ message

/-- `ResponseAction`. -/
inductive ResponseAction
  | allow
  | reject (reason : String)
  | redact (text : String)
  deriving DecidableEq

/-- `Stage`. -/
inductive Stage
  | beforeRequest
  | afterRequest
  | afterResponse
  | onError
  deriving DecidableEq

/-- `Plugin`. -/
structure Plugin where
  name : String
  stage : Stage
  alsoAfterRequest : Bool
  execute : PluginContext → PluginContext × Except PluginError Unit

/-- `ResponseGuardrail`. -/
structure ResponseGuardrail where
  name : String
  checkResponse : PluginContext → String → Except PluginError ResponseAction

/-- `PluginManager`, the stages a request runs. -/
structure PluginManager where
  beforeRequest : List Plugin
  afterRequest : List Plugin
  responseGuardrails : List ResponseGuardrail

/-- The loop of `PluginManager::run_before`: the first error stops it, and what the plugins up to
there did to the context stays done. -/
def runPlugins : List Plugin → PluginContext → PluginContext × Except PluginError Unit
  | [], ctx => (ctx, .ok ())
  | p :: ps, ctx =>
    match p.execute ctx with
    | (ctx', .ok ()) => runPlugins ps ctx'
    | (ctx', .error e) => (ctx', .error e)

theorem runPlugins_append (ps ps' : List Plugin) (ctx : PluginContext) :
    runPlugins (ps ++ ps') ctx =
      match runPlugins ps ctx with
      | (ctx', .ok ()) => runPlugins ps' ctx'
      | (ctx', .error e) => (ctx', .error e) := by
  induction ps generalizing ctx with
  | nil => rfl
  | cons p ps ih =>
    rw [List.cons_append, runPlugins, runPlugins]
    rcases p.execute ctx with ⟨ctx', e | u⟩
    · rfl
    · exact ih ctx'

/-- `PluginManager::run_logged`: failures are only logged. -/
def runLogged (plugins : List Plugin) (ctx : PluginContext) : PluginContext :=
  plugins.foldl (fun ctx p ↦ (p.execute ctx).1) ctx

/-- The loop of `PluginManager::run_response_guardrails`. -/
def runGuardrails (ctx : PluginContext) (response : String) :
    List ResponseGuardrail → Except PluginError ResponseAction
  | [] => .ok .allow
  | g :: gs =>
    match g.checkResponse ctx response with
    | .ok .allow => runGuardrails ctx response gs
    | other => other

namespace PluginManager

/-- `PluginManager::new`. -/
def new : PluginManager := ⟨[], [], []⟩

variable (manager : PluginManager)

/-- `PluginManager::register`; the stages that a request does not run are left out. -/
def register (plugin : Plugin) : PluginManager :=
  let afterRequest :=
    if plugin.alsoAfterRequest && plugin.stage != .afterRequest then
      manager.afterRequest ++ [plugin]
    else manager.afterRequest
  match plugin.stage with
  | .beforeRequest =>
    { manager with beforeRequest := manager.beforeRequest ++ [plugin], afterRequest }
  | .afterRequest => { manager with afterRequest := afterRequest ++ [plugin] }
  | .afterResponse | .onError => { manager with afterRequest }

/-- `PluginManager::run_before`. -/
def runBefore (ctx : PluginContext) : PluginContext × Except PluginError Unit :=
  runPlugins manager.beforeRequest ctx

/-- `PluginManager::run_after`. -/
def runAfter (ctx : PluginContext) : PluginContext := runLogged manager.afterRequest ctx

/-- `PluginManager::run_response_guardrails`. -/
def runResponseGuardrails (ctx : PluginContext) (response : String) :
    Except PluginError ResponseAction :=
  runGuardrails ctx response manager.responseGuardrails

end PluginManager

end Himadri
