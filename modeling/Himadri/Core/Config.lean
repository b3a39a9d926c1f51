import Himadri.Core.KeyMap
import Himadri.Core.Types

/-!
# The gateway's configuration

`Config` of `himadri-core` with the sections the gateway routes and guards by, its defaults, the
shim for the deprecated `block_pii` flag, and validation. A `HashMap` of the source is a `KeyMap`,
so two configurations are equal when they answer alike. The `observability` and `cors` sections, and
the `audit` part of the guardrails, are read by nothing that is modelled and left out.
-/

namespace Himadri

/-! ### Guardrails -/

/-- `PiiModeConfig`. -/
inductive PiiModeConfig
  | redact
  | block
  | observe
  deriving DecidableEq

/-- `PiiStrategyConfig`. -/
inductive PiiStrategyConfig
  | replace
  | mask
  | hash
  | encrypt
  | remove
  deriving DecidableEq

/-- `PiiResponseModeConfig`. -/
inductive PiiResponseModeConfig
  | off
  | observe
  | redact
  | block
  deriving DecidableEq

/-- `PiiGuardrailConfig`. -/
structure PiiGuardrailConfig where
  enabled : Bool
  mode : PiiModeConfig
  strategy : PiiStrategyConfig
  /-- The entity types to act on; `none` is every type the engine detects. -/
  entities : Option (List String)
  minConfidence : ℚ
  applyTo : List String
  scanToolArguments : Bool
  failOpen : Bool
  responseMode : PiiResponseModeConfig
  deriving DecidableEq

/-- `PiiGuardrailConfig::default`. -/
def PiiGuardrailConfig.default : PiiGuardrailConfig where
  enabled := false
  mode := .redact
  strategy := .replace
  entities := none
  minConfidence := 3 / 5
  applyTo := ["user", "system", "tool"]
  scanToolArguments := false
  failOpen := false
  responseMode := .off

/-- `ContentFilterConfig`. -/
structure ContentFilterConfig where
  enabled : Bool
  blockPii : Bool
  blockToxicity : Bool
  customPatterns : List String
  deriving DecidableEq

/-- `OrgGuardrailConfig`. -/
structure OrgGuardrailConfig where
  enabled : Bool
  blockedWords : List String
  maxTokensPerRequest : Option ℕ
  contentFilter : Option ContentFilterConfig
  pii : Option PiiGuardrailConfig
  deriving DecidableEq

/-- `OrgGuardrailConfig::default`. -/
def OrgGuardrailConfig.default : OrgGuardrailConfig where
  enabled := false
  blockedWords := []
  maxTokensPerRequest := none
  contentFilter := none
  pii := none

/-! ### Tenants, limits and roles -/

/-- `RateLimitConfig`. -/
structure RateLimitConfig where
  enabled : Bool
  requestsPerSecond : ℕ
  burstSize : ℕ
  deriving DecidableEq

/-- `RateLimitConfig::default`. -/
def RateLimitConfig.default : RateLimitConfig where
  enabled := false
  requestsPerSecond := 100
  burstSize := 200

/-- `OrgTokenBudget`. -/
structure OrgTokenBudget where
  maxTokensPerRequest : Option ℕ
  maxTokensPerDay : Option ℕ
  maxTokensPerMonth : Option ℕ
  costLimitPerDay : Option ℚ
  costLimitPerMonth : Option ℚ
  deriving DecidableEq

/-- `TeamConfig`. -/
structure TeamConfig where
  name : Option String
  enabled : Bool
  allowedModels : Option (List String)
  blockedModels : Option (List String)
  rateLimit : Option RateLimitConfig
  tokenBudget : Option OrgTokenBudget
  guardrails : OrgGuardrailConfig

/-- `OrgConfig`. -/
structure OrgConfig where
  name : Option String
  enabled : Bool
  allowedModels : Option (List String)
  blockedModels : Option (List String)
  rateLimit : Option RateLimitConfig
  tokenBudget : Option OrgTokenBudget
  guardrails : OrgGuardrailConfig
  teams : KeyMap String TeamConfig

/-- `RolePolicy`. -/
structure RolePolicy where
  models : Option (List String)
  providers : Option (List String)

/-- `RbacConfig`. -/
structure RbacConfig where
  enabled : Bool
  roles : KeyMap String RolePolicy
  defaultRole : Option String

/-- `RbacConfig::default`. -/
def RbacConfig.default : RbacConfig := ⟨false, .empty, none⟩

/-! ### The strategy section -/

/-- `StrategyMode`. -/
inductive StrategyMode
  | single
  | fallback
  | loadBalance
  | leastLatency
  | costOptimized
  | conditional
  | contentBased
  | abTest
  deriving DecidableEq

/-- `ConditionKeyConfig`. -/
inductive ConditionKeyConfig
  | model
  | modelPrefix
  deriving DecidableEq

/-- `ConditionalRuleConfig`. -/
structure ConditionalRuleConfig where
  key : ConditionKeyConfig
  value : String
  target : Target
  deriving DecidableEq

/-- `ContentConditionTypeConfig`. -/
inductive ContentConditionTypeConfig
  | promptContains
  | promptNotContains
  | promptRegex
  deriving DecidableEq

/-- `ContentRuleConfig`. -/
structure ContentRuleConfig where
  conditionType : ContentConditionTypeConfig
  value : String
  target : Target
  deriving DecidableEq

/-- `ABVariantConfig`. -/
structure ABVariantConfig where
  target : Target
  weight : ℚ
  label : String
  deriving DecidableEq

/-- `StrategyConfig`. -/
structure StrategyConfig where
  mode : StrategyMode
  fallbackTimeoutMs : ℕ
  conditionalRules : List ConditionalRuleConfig
  contentRules : List ContentRuleConfig
  abVariants : List ABVariantConfig
  strategyFallback : Option Target
  deriving DecidableEq

/-- `StrategyConfig::default`. -/
def StrategyConfig.default : StrategyConfig where
  mode := .single
  fallbackTimeoutMs := 30000
  conditionalRules := []
  contentRules := []
  abVariants := []
  strategyFallback := none

/-! ### The whole -/

/-- `Config`. -/
structure Config where
  strategy : StrategyConfig
  targets : List Target
  rateLimit : RateLimitConfig
  /-- `admin.master_key`. -/
  masterKey : Option String
  orgs : KeyMap String OrgConfig
  rbac : RbacConfig
  /-- `guardrails.pii`. -/
  pii : PiiGuardrailConfig

/-- `Config::default`. -/
def Config.default : Config where
  strategy := .default
  targets := [{ Target.ofProvider "openai" with apiKeyEnv := some "OPENAI_API_KEY" }]
  rateLimit := .default
  masterKey := none
  orgs := .empty
  rbac := .default
  pii := .default

namespace OrgGuardrailConfig

/-- Whether the deprecated `content_filter.block_pii` is in force. -/
def blockPii (guardrails : OrgGuardrailConfig) : Bool :=
  guardrails.enabled &&
    (match guardrails.contentFilter with
    | some cf => cf.enabled && cf.blockPii
    | none => false)

/-- The `shim` of `apply_guardrail_deprecations`: the deprecated flag becomes a `pii` section where
none is given. -/
def shim (guardrails : OrgGuardrailConfig) : OrgGuardrailConfig :=
  if guardrails.blockPii && guardrails.pii.isNone then
    { guardrails with
      pii := some { PiiGuardrailConfig.default with enabled := true, mode := .block } }
  else guardrails

theorem shim_shim (guardrails : OrgGuardrailConfig) : guardrails.shim.shim = guardrails.shim := by
  by_cases h : (guardrails.blockPii && guardrails.pii.isNone) = true
  · have hpii : guardrails.shim.pii.isNone = false := by simp [shim, h]
    rw [shim, hpii, Bool.and_false]
    rfl
  · have hsame : guardrails.shim = guardrails := if_neg h
    rw [hsame, hsame]

end OrgGuardrailConfig

namespace Config

/-- The shim on one team. -/
def shimTeam (team : TeamConfig) : TeamConfig := { team with guardrails := team.guardrails.shim }

/-- The shim on one organisation and its teams. -/
def shimOrg (org : OrgConfig) : OrgConfig :=
  { org with guardrails := org.guardrails.shim, teams := org.teams.mapValues shimTeam }

/-- `Config::apply_guardrail_deprecations`. -/
def applyGuardrailDeprecations (config : Config) : Config :=
  { config with orgs := config.orgs.mapValues shimOrg }

/-- `Config::validate`. -/
def validate (config : Config) : Except ConfigError Unit :=
  if config.targets.isEmpty then .error (.missingField "targets")
  else if config.targets.any (·.provider.isEmpty) then .error (.missingField "target.provider")
  else .ok ()

theorem shimTeam_shimTeam (team : TeamConfig) : shimTeam (shimTeam team) = shimTeam team := by
  simp [shimTeam, OrgGuardrailConfig.shim_shim]

theorem shimOrg_shimOrg (org : OrgConfig) : shimOrg (shimOrg org) = shimOrg org := by
  have hteams : shimTeam ∘ shimTeam = shimTeam := funext shimTeam_shimTeam
  simp [shimOrg, OrgGuardrailConfig.shim_shim, KeyMap.mapValues_mapValues, hteams]

/-- A configuration that was normalised once stays as it is. -/
@[simp] theorem applyGuardrailDeprecations_idem (config : Config) :
    config.applyGuardrailDeprecations.applyGuardrailDeprecations =
      config.applyGuardrailDeprecations := by
  have horgs : shimOrg ∘ shimOrg = shimOrg := funext shimOrg_shimOrg
  simp [applyGuardrailDeprecations, KeyMap.mapValues_mapValues, horgs]

@[simp] theorem applyGuardrailDeprecations_default :
    default.applyGuardrailDeprecations = default := rfl

/-- The default configuration passes its own check. -/
theorem validate_default : default.validate = .ok () := rfl

end Config

end Himadri
