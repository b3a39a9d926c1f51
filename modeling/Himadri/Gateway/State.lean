import Himadri.CircuitBreaker.Breaker
import Himadri.Gateway.Strategy
import Himadri.Provider.Client
import Himadri.RateLimit.Limiter

/-!
# The gateway's shared state

The fields of `Gateway` that requests and admin operations share, what a new gateway starts with,
and the accessors both sides use. The regular-expression compiler, the provider registry and the
process environment are outside this state and arguments of the functions that use them.
-/

namespace Himadri

/-- `ConfigHistoryEntry`; its timestamp is only displayed. -/
structure ConfigHistoryEntry where
  version : ℕ
  config : Config
  rolledBackFrom : Option ℕ

/-- `ConfigHistory`. `nextVersion` is a `u32`. -/
structure ConfigHistory where
  entries : List ConfigHistoryEntry
  nextVersion : ℕ

namespace ConfigHistory

/-- `ConfigHistory::default`. -/
def default : ConfigHistory := ⟨[], 0⟩

/-- `ConfigHistory::record`. -/
def record (history : ConfigHistory) (config : Config) (rolledBackFrom : Option ℕ) :
    ConfigHistory where
  entries := history.entries ++ [⟨max history.nextVersion 1, config, rolledBackFrom⟩]
  nextVersion := (max history.nextVersion 1 + 1) % UInt32.size

end ConfigHistory

/-- `Gateway`. -/
structure Gateway where
  strategy : Strategy
  config : Config
  targets : List Target
  configHistory : ConfigHistory
  /-- Clients by routing key. -/
  providers : KeyMap String ProviderClient
  /-- Decrypted keys of database endpoints by endpoint id. -/
  providerKeys : KeyMap String String
  circuitBreakers : KeyMap String (CircuitBreaker .default)
  rateLimiter : RateLimiter

/-- `routing_key`. -/
def routingKey (target : Target) : String := target.id.getD target.provider

/-- `target_serves_model`. -/
def targetServesModel (target : Target) (model : String) : Bool :=
  match target.models with
  | none => true
  | some models => models.contains model

namespace Gateway

/-- `Gateway::new`. -/
def new (regexNew : String → Option Regex) (config : Config) : Gateway where
  strategy := .fromStrategyConfig regexNew config.strategy
  config := config
  targets := config.targets
  configHistory := ConfigHistory.default.record config none
  providers := .empty
  providerKeys := .empty
  circuitBreakers := .empty
  rateLimiter := .new config.rateLimit.requestsPerSecond config.rateLimit.burstSize

variable (g : Gateway)

/-- `Gateway::register_provider`. -/
def registerProvider (client : ProviderClient) : Gateway :=
  { g with providers := g.providers.insert client.name client }

/-- `Gateway::db_owns_routing`. -/
def dbOwnsRouting : Bool := g.targets.any (·.id.isSome)

/-- `Gateway::get_api_key`; `env` is `std::env::var(..).ok()`. -/
def getApiKey (env : String → Option String) (target : Target) : Except GatewayError String :=
  match target.apiKeyEnv with
  | some envVar =>
    match env envVar with
    | some key => .ok key
    | none =>
      .error (.serviceUnavailable ("Missing API key environment variable: " ++ envVar))
  | none => .ok ((g.providerKeys.get (routingKey target)).getD "")

end Gateway

end Himadri
