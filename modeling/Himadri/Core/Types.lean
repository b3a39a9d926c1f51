import Mathlib.Data.Rat.Defs

/-!
# The data the gateway routes with

`Target` of `himadri-core` and the gateway's error surface.
-/

namespace Himadri

/-- `Target`: one place a request can be sent to. -/
structure Target where
  /-- The endpoint id of a database endpoint; config and environment targets have none. -/
  id : Option String
  provider : String
  /-- The source's `f64`, as an exact rational. -/
  weight : ℚ
  models : Option (List String)
  apiKeyEnv : Option String
  baseUrl : Option String
  deriving DecidableEq

/-- The target a configuration gets by naming a provider: every `#[serde(default)]` field. -/
def Target.ofProvider (provider : String) : Target where
  id := none
  provider
  weight := 1
  models := none
  apiKeyEnv := none
  baseUrl := none

/-- `ConfigError`. -/
inductive ConfigError
  | invalidStrategy (mode : String)
  | missingField (field : String)
  | invalidValue (field reason : String)
  | io (error : String)
  | parse (error : String)
  deriving DecidableEq

/-- The error's message. -/
def ConfigError.display : ConfigError → String
  | .invalidStrategy mode => "invalid strategy mode: " ++ mode
  | .missingField field => "missing required field: " ++ field
  | .invalidValue field reason => "invalid value for " ++ field ++ ": " ++ reason
  | .io error => "io error: " ++ error
  | .parse error => "parse error: " ++ error

/-- `GatewayError`. -/
inductive GatewayError
  | providerNotFound (name : String)
  | circuitOpen (provider : String)
  | rateLimited (retryAfterSecs : ℕ)
  | quotaExceeded (message : String)
  | unauthorized
  | forbidden (message : String)
  | notFound (message : String)
  | badRequest (message : String)
  | provider (message : String)
  | config (error : ConfigError)
  | internal (message : String)
  | serviceUnavailable (message : String)
  deriving DecidableEq

/-- The error's message. -/
def GatewayError.display : GatewayError → String
  | .providerNotFound name => "provider not found: " ++ name
  | .circuitOpen name => "circuit breaker open for provider: " ++ name
  | .rateLimited _ => "rate limited"
  | .quotaExceeded message => "quota exceeded: " ++ message
  | .unauthorized => "unauthorized"
  | .forbidden message => "forbidden: " ++ message
  | .notFound message => "not found: " ++ message
  | .badRequest message => "bad request: " ++ message
  | .provider message => "provider error: " ++ message
  | .config error => "config error: " ++ error.display
  | .internal message => "internal error: " ++ message
  | .serviceUnavailable message => "service unavailable: " ++ message

end Himadri
