import Himadri.Core.Types
import Mathlib.Data.Nat.Basic

/-!
# What a provider call can fail with

`ProviderError` of `himadri-provider`, which of its errors the failover loop may retry on another
target, and what a client is told of one.
-/

namespace Himadri

/-- `ProviderError`. -/
inductive ProviderError
  | auth (message : String)
  | rateLimited (retryAfterSecs : ℕ)
  | modelNotFound (model : String)
  | contextLengthExceeded (max actual : ℕ)
  | api (status : ℕ) (message : String)
  | network (message : String)
  | parse (message : String)
  | internal (message : String)
  | unsupported (operation : String)
  | unknownType (providerType : String)
  | missingBaseUrl (provider : String)
  | invalidConfiguration (message : String)
  deriving DecidableEq

namespace ProviderError

/-- `ProviderError::retryable`. -/
def retryable : ProviderError → Bool
  | .rateLimited _ => true
  | .network _ => true
  | .api status _ => [500, 502, 503, 504, 529].contains status
  | _ => false

/-- The error is an upstream's 429. -/
def isRateLimited : ProviderError → Bool
  | .rateLimited _ => true
  | _ => false

/-- The error's message. -/
def display : ProviderError → String
  | .auth message => "authentication failed: " ++ message
  | .rateLimited retryAfterSecs => "rate limited, retry after " ++ toString retryAfterSecs ++ "s"
  | .modelNotFound model => "model not found: " ++ model
  | .contextLengthExceeded max actual =>
    "context length exceeded: max " ++ toString max ++ ", got " ++ toString actual
  | .api status message => "provider error (" ++ toString status ++ "): " ++ message
  | .network message => "network error: " ++ message
  | .parse message => "parse error: " ++ message
  | .internal message => "internal error: " ++ message
  | .unsupported operation => "operation not supported: " ++ operation
  | .unknownType providerType => "unknown provider type: " ++ providerType
  | .missingBaseUrl provider => "missing base_url for provider: " ++ provider
  | .invalidConfiguration message => "invalid provider configuration: " ++ message

/-- `GatewayError::from(ProviderError)`. -/
def toGatewayError : ProviderError → GatewayError
  | .auth _ => .serviceUnavailable "upstream provider authentication failed"
  | .rateLimited retryAfterSecs => .rateLimited retryAfterSecs
  | .modelNotFound model => .notFound ("model: " ++ model)
  | .contextLengthExceeded max actual =>
    .badRequest ("context length exceeded: max " ++ toString max ++ ", got " ++ toString actual)
  | .api status message =>
    if status = 401 || status = 403 then
      .serviceUnavailable "upstream provider authentication failed"
    else if status = 429 then .rateLimited 60
    else if 400 ≤ status && status < 500 then .badRequest message
    else .serviceUnavailable message
  | .network message => .serviceUnavailable message
  | .parse message => .provider ("parse error: " ++ message)
  | .internal message => .internal message
  | .unsupported operation => .badRequest ("operation not supported: " ++ operation)
  | .unknownType providerType => .badRequest ("unknown provider type: " ++ providerType)
  | .missingBaseUrl provider => .badRequest ("missing base_url for provider: " ++ provider)
  | .invalidConfiguration message =>
    .badRequest ("invalid provider configuration: " ++ message)

end ProviderError

end Himadri
