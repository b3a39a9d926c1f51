import Himadri.Admin.UpdateBodies
import Himadri.Core.Config
import Himadri.Core.ReadsBack
import Himadri.Core.RequestJson

/-!
# The configuration in JSON

The derived `Deserialize` and `Serialize` of `Config`, by which it is loaded from a file, taken from
the body of a request and given out by the admin API. The master key is read and never written. The
`f32` of a confidence and the `f64`s are exact rationals, and the sections that `Config` leaves out
are left out here too.

What is written reads back as what it was but for the master key, in whichever order the maps were
iterated (`Config.Fits.decode_written`); and whatever was read can be written
(`Config.written_reads_back`).
-/

namespace Himadri

open Serde

/-! ### Targets -/

/-- `Target`. -/
def decodeTarget (v : Json) : Option Target := do
  guard (v.elements.length ≤ 6)
  let id ← structField v 0 "id" (some none) (some none) (option string)
  let provider ← structField v 1 "provider" none none string
  let weight ← structField v 2 "weight" (some 1) (some 1) f64
  let models ← structField v 3 "models" (some none) (some none) (option (array string))
  let apiKeyEnv ← structField v 4 "api_key_env" (some none) (some none) (option string)
  let baseUrl ← structField v 5 "base_url" (some none) (some none) (option string)
  return { id, provider, weight, models, apiKeyEnv, baseUrl }

/-- `Target`. -/
def Target.json (t : Target) : Json :=
  .record [("id", some (orNull .string t.id)), ("provider", some (.string t.provider)),
    ("weight", some (floatJson t.weight)), ("models", some (orNull (Json.list .string) t.models)),
    ("api_key_env", some (orNull .string t.apiKeyEnv)),
    ("base_url", some (orNull .string t.baseUrl))]

/-! ### Guardrails -/

/-- `PiiModeConfig`. -/
def decodePiiMode : Json → Option PiiModeConfig :=
  variant fun
    | "redact" => some .redact
    | "block" => some .block
    | "observe" => some .observe
    | _ => none

/-- `PiiModeConfig`. -/
def PiiModeConfig.json : PiiModeConfig → Json
  | .redact => .string "redact"
  | .block => .string "block"
  | .observe => .string "observe"

/-- `PiiStrategyConfig`. -/
def decodePiiStrategy : Json → Option PiiStrategyConfig :=
  variant fun
    | "replace" => some .replace
    | "mask" => some .mask
    | "hash" => some .hash
    | "encrypt" => some .encrypt
    | "remove" => some .remove
    | _ => none

/-- `PiiStrategyConfig`. -/
def PiiStrategyConfig.json : PiiStrategyConfig → Json
  | .replace => .string "replace"
  | .mask => .string "mask"
  | .hash => .string "hash"
  | .encrypt => .string "encrypt"
  | .remove => .string "remove"

/-- `PiiResponseModeConfig`. -/
def decodePiiResponseMode : Json → Option PiiResponseModeConfig :=
  variant fun
    | "off" => some .off
    | "observe" => some .observe
    | "redact" => some .redact
    | "block" => some .block
    | _ => none

/-- `PiiResponseModeConfig`. -/
def PiiResponseModeConfig.json : PiiResponseModeConfig → Json
  | .off => .string "off"
  | .observe => .string "observe"
  | .redact => .string "redact"
  | .block => .string "block"

/-- A field of a struct whose fields have the defaults of the struct. -/
def defaultField {α : Type} (v : Json) (i : ℕ) (name : String) (default : α)
    (decode : Json → Option α) : Option α :=
  structField v i name (some default) (some default) decode

/-- `PiiGuardrailConfig`. -/
def decodePii (v : Json) : Option PiiGuardrailConfig := do
  let d := PiiGuardrailConfig.default
  guard (v.elements.length ≤ 9)
  let enabled ← defaultField v 0 "enabled" d.enabled bool
  let mode ← defaultField v 1 "mode" d.mode decodePiiMode
  let strategy ← defaultField v 2 "strategy" d.strategy decodePiiStrategy
  let entities ← defaultField v 3 "entities" d.entities (option (array string))
  let minConfidence ← defaultField v 4 "min_confidence" d.minConfidence f64
  let applyTo ← defaultField v 5 "apply_to" d.applyTo (array string)
  let scanToolArguments ← defaultField v 6 "scan_tool_arguments" d.scanToolArguments bool
  let failOpen ← defaultField v 7 "fail_open" d.failOpen bool
  let responseMode ← defaultField v 8 "response_mode" d.responseMode decodePiiResponseMode
  return { enabled, mode, strategy, entities, minConfidence, applyTo, scanToolArguments, failOpen,
           responseMode }

/-- `PiiGuardrailConfig`. -/
def PiiGuardrailConfig.json (c : PiiGuardrailConfig) : Json :=
  .record [("enabled", some (.bool c.enabled)), ("mode", some c.mode.json),
    ("strategy", some c.strategy.json),
    ("entities", some (orNull (Json.list .string) c.entities)),
    ("min_confidence", some (floatJson c.minConfidence)),
    ("apply_to", some (Json.list .string c.applyTo)),
    ("scan_tool_arguments", some (.bool c.scanToolArguments)),
    ("fail_open", some (.bool c.failOpen)), ("response_mode", some c.responseMode.json)]

/-- `ContentFilterConfig`. -/
def decodeContentFilter (v : Json) : Option ContentFilterConfig := do
  guard (v.elements.length ≤ 4)
  let enabled ← defaultField v 0 "enabled" false bool
  let blockPii ← defaultField v 1 "block_pii" false bool
  let blockToxicity ← defaultField v 2 "block_toxicity" false bool
  let customPatterns ← defaultField v 3 "custom_patterns" [] (array string)
  return { enabled, blockPii, blockToxicity, customPatterns }

/-- `ContentFilterConfig`. -/
def ContentFilterConfig.json (c : ContentFilterConfig) : Json :=
  .record [("enabled", some (.bool c.enabled)), ("block_pii", some (.bool c.blockPii)),
    ("block_toxicity", some (.bool c.blockToxicity)),
    ("custom_patterns", some (Json.list .string c.customPatterns))]

/-- `OrgGuardrailConfig`. -/
def decodeGuardrails (v : Json) : Option OrgGuardrailConfig := do
  guard (v.elements.length ≤ 6)
  let enabled ← defaultField v 0 "enabled" false bool
  let blockedWords ← defaultField v 1 "blocked_words" [] (array string)
  let maxTokensPerRequest ←
    defaultField v 2 "max_tokens_per_request" none (option (unsigned UInt32.size))
  let contentFilter ← defaultField v 3 "content_filter" none (option decodeContentFilter)
  let pii ← defaultField v 4 "pii" none (option decodePii)
  return { enabled, blockedWords, maxTokensPerRequest, contentFilter, pii }

/-- `OrgGuardrailConfig`: an absent `pii` section is skipped. -/
def OrgGuardrailConfig.json (c : OrgGuardrailConfig) : Json :=
  .record [("enabled", some (.bool c.enabled)),
    ("blocked_words", some (Json.list .string c.blockedWords)),
    ("max_tokens_per_request", some (orNull Json.nat c.maxTokensPerRequest)),
    ("content_filter", some (orNull ContentFilterConfig.json c.contentFilter)),
    ("pii", c.pii.map PiiGuardrailConfig.json)]

/-! ### Tenants, limits and roles -/

/-- `RateLimitConfig`. -/
def decodeRateLimit (v : Json) : Option RateLimitConfig := do
  let d := RateLimitConfig.default
  guard (v.elements.length ≤ 3)
  let enabled ← defaultField v 0 "enabled" d.enabled bool
  let requestsPerSecond ←
    defaultField v 1 "requests_per_second" d.requestsPerSecond (unsigned UInt64.size)
  let burstSize ← defaultField v 2 "burst_size" d.burstSize (unsigned UInt64.size)
  return { enabled, requestsPerSecond, burstSize }

/-- `RateLimitConfig`. -/
def RateLimitConfig.json (c : RateLimitConfig) : Json :=
  .record [("enabled", some (.bool c.enabled)),
    ("requests_per_second", some (Json.nat c.requestsPerSecond)),
    ("burst_size", some (Json.nat c.burstSize))]

/-- `OrgTokenBudget`. -/
def OrgTokenBudget.json (b : OrgTokenBudget) : Json :=
  .record [("max_tokens_per_request", some (orNull Json.nat b.maxTokensPerRequest)),
    ("max_tokens_per_day", some (orNull Json.nat b.maxTokensPerDay)),
    ("max_tokens_per_month", some (orNull Json.nat b.maxTokensPerMonth)),
    ("cost_limit_per_day", some (orNull floatJson b.costLimitPerDay)),
    ("cost_limit_per_month", some (orNull floatJson b.costLimitPerMonth))]

/-- `TeamConfig`. -/
def decodeTeam (v : Json) : Option TeamConfig := do
  guard (v.elements.length ≤ 7)
  let name ← defaultField v 0 "name" none (option string)
  let enabled ← defaultField v 1 "enabled" false bool
  let allowedModels ← defaultField v 2 "allowed_models" none (option (array string))
  let blockedModels ← defaultField v 3 "blocked_models" none (option (array string))
  let rateLimit ← defaultField v 4 "rate_limit" none (option decodeRateLimit)
  let tokenBudget ← defaultField v 5 "token_budget" none (option OrgTokenBudget.deserialize)
  let guardrails ← defaultField v 6 "guardrails" .default decodeGuardrails
  return { name, enabled, allowedModels, blockedModels, rateLimit, tokenBudget, guardrails }

/-- `TeamConfig`. -/
def TeamConfig.json (c : TeamConfig) : Json :=
  .record [("name", some (orNull .string c.name)), ("enabled", some (.bool c.enabled)),
    ("allowed_models", some (orNull (Json.list .string) c.allowedModels)),
    ("blocked_models", some (orNull (Json.list .string) c.blockedModels)),
    ("rate_limit", some (orNull RateLimitConfig.json c.rateLimit)),
    ("token_budget", some (orNull OrgTokenBudget.json c.tokenBudget)),
    ("guardrails", some c.guardrails.json)]

/-- `OrgConfig`. -/
def decodeOrg (v : Json) : Option OrgConfig := do
  guard (v.elements.length ≤ 8)
  let name ← defaultField v 0 "name" none (option string)
  let enabled ← defaultField v 1 "enabled" false bool
  let allowedModels ← defaultField v 2 "allowed_models" none (option (array string))
  let blockedModels ← defaultField v 3 "blocked_models" none (option (array string))
  let rateLimit ← defaultField v 4 "rate_limit" none (option decodeRateLimit)
  let tokenBudget ← defaultField v 5 "token_budget" none (option OrgTokenBudget.deserialize)
  let guardrails ← defaultField v 6 "guardrails" .default decodeGuardrails
  let teams ← defaultField v 7 "teams" .empty (map decodeTeam)
  return { name, enabled, allowedModels, blockedModels, rateLimit, tokenBudget, guardrails, teams }

/-- `OrgConfig`, with its teams in the order they are iterated in. -/
def OrgConfig.json (c : OrgConfig) (teams : List (String × Json)) : Json :=
  .record [("name", some (orNull .string c.name)), ("enabled", some (.bool c.enabled)),
    ("allowed_models", some (orNull (Json.list .string) c.allowedModels)),
    ("blocked_models", some (orNull (Json.list .string) c.blockedModels)),
    ("rate_limit", some (orNull RateLimitConfig.json c.rateLimit)),
    ("token_budget", some (orNull OrgTokenBudget.json c.tokenBudget)),
    ("guardrails", some c.guardrails.json), ("teams", some (.object teams))]

/-- `RolePolicy`. -/
def decodeRolePolicy (v : Json) : Option RolePolicy := do
  guard (v.elements.length ≤ 2)
  let models ← defaultField v 0 "models" none (option (array string))
  let providers ← defaultField v 1 "providers" none (option (array string))
  return { models, providers }

/-- `RolePolicy`. -/
def RolePolicy.json (p : RolePolicy) : Json :=
  .record [("models", some (orNull (Json.list .string) p.models)),
    ("providers", some (orNull (Json.list .string) p.providers))]

/-- `RbacConfig`. -/
def decodeRbac (v : Json) : Option RbacConfig := do
  guard (v.elements.length ≤ 3)
  let enabled ← defaultField v 0 "enabled" false bool
  let roles ← defaultField v 1 "roles" .empty (map decodeRolePolicy)
  let defaultRole ← defaultField v 2 "default_role" none (option string)
  return { enabled, roles, defaultRole }

/-- `RbacConfig`, with its roles in the order they are iterated in. -/
def RbacConfig.json (c : RbacConfig) (roles : List (String × Json)) : Json :=
  .record [("enabled", some (.bool c.enabled)), ("roles", some (.object roles)),
    ("default_role", some (orNull .string c.defaultRole))]

/-! ### The strategy section -/

/-- `StrategyMode`. -/
def decodeStrategyMode : Json → Option StrategyMode :=
  variant fun
    | "single" => some .single
    | "fallback" => some .fallback
    | "loadbalance" => some .loadBalance
    | "leastlatency" => some .leastLatency
    | "costoptimized" => some .costOptimized
    | "conditional" => some .conditional
    | "content_based" => some .contentBased
    | "ab_test" => some .abTest
    | _ => none

/-- `StrategyMode`. -/
def StrategyMode.json : StrategyMode → Json
  | .single => .string "single"
  | .fallback => .string "fallback"
  | .loadBalance => .string "loadbalance"
  | .leastLatency => .string "leastlatency"
  | .costOptimized => .string "costoptimized"
  | .conditional => .string "conditional"
  | .contentBased => .string "content_based"
  | .abTest => .string "ab_test"

/-- `ConditionKeyConfig`. -/
def decodeConditionKey : Json → Option ConditionKeyConfig :=
  variant fun
    | "model" => some .model
    | "model_prefix" => some .modelPrefix
    | _ => none

/-- `ConditionKeyConfig`. -/
def ConditionKeyConfig.json : ConditionKeyConfig → Json
  | .model => .string "model"
  | .modelPrefix => .string "model_prefix"

/-- `ConditionalRuleConfig`. -/
def decodeConditionalRule (v : Json) : Option ConditionalRuleConfig := do
  guard (v.elements.length ≤ 3)
  let key ← structField v 0 "key" none none decodeConditionKey
  let value ← structField v 1 "value" none none string
  let target ← structField v 2 "target" none none decodeTarget
  return { key, value, target }

/-- `ConditionalRuleConfig`. -/
def ConditionalRuleConfig.json (r : ConditionalRuleConfig) : Json :=
  .record [("key", some r.key.json), ("value", some (.string r.value)),
    ("target", some r.target.json)]

/-- `ContentConditionTypeConfig`. -/
def decodeContentConditionType : Json → Option ContentConditionTypeConfig :=
  variant fun
    | "prompt_contains" => some .promptContains
    | "prompt_not_contains" => some .promptNotContains
    | "prompt_regex" => some .promptRegex
    | _ => none

/-- `ContentConditionTypeConfig`. -/
def ContentConditionTypeConfig.json : ContentConditionTypeConfig → Json
  | .promptContains => .string "prompt_contains"
  | .promptNotContains => .string "prompt_not_contains"
  | .promptRegex => .string "prompt_regex"

/-- `ContentRuleConfig`. -/
def decodeContentRule (v : Json) : Option ContentRuleConfig := do
  guard (v.elements.length ≤ 3)
  let conditionType ← structField v 0 "condition_type" none none decodeContentConditionType
  let value ← structField v 1 "value" none none string
  let target ← structField v 2 "target" none none decodeTarget
  return { conditionType, value, target }

/-- `ContentRuleConfig`. -/
def ContentRuleConfig.json (r : ContentRuleConfig) : Json :=
  .record [("condition_type", some r.conditionType.json), ("value", some (.string r.value)),
    ("target", some r.target.json)]

/-- `ABVariantConfig`. -/
def decodeAbVariant (v : Json) : Option ABVariantConfig := do
  guard (v.elements.length ≤ 3)
  let target ← structField v 0 "target" none none decodeTarget
  let weight ← defaultField v 1 "weight" 0 f64
  let label ← defaultField v 2 "label" "" string
  return { target, weight, label }

/-- `ABVariantConfig`. -/
def ABVariantConfig.json (c : ABVariantConfig) : Json :=
  .record [("target", some c.target.json), ("weight", some (floatJson c.weight)),
    ("label", some (.string c.label))]

/-- `StrategyConfig`. -/
def decodeStrategy (v : Json) : Option StrategyConfig := do
  let d := StrategyConfig.default
  guard (v.elements.length ≤ 6)
  let mode ← defaultField v 0 "mode" d.mode decodeStrategyMode
  let fallbackTimeoutMs ←
    defaultField v 1 "fallback_timeout_ms" d.fallbackTimeoutMs (unsigned UInt64.size)
  let conditionalRules ←
    defaultField v 2 "conditional_rules" d.conditionalRules (array decodeConditionalRule)
  let contentRules ← defaultField v 3 "content_rules" d.contentRules (array decodeContentRule)
  let abVariants ← defaultField v 4 "ab_variants" d.abVariants (array decodeAbVariant)
  let strategyFallback ←
    defaultField v 5 "strategy_fallback" d.strategyFallback (option decodeTarget)
  return { mode, fallbackTimeoutMs, conditionalRules, contentRules, abVariants, strategyFallback }

/-- `StrategyConfig`. -/
def StrategyConfig.json (c : StrategyConfig) : Json :=
  .record [("mode", some c.mode.json), ("fallback_timeout_ms", some (Json.nat c.fallbackTimeoutMs)),
    ("conditional_rules", some (Json.list ConditionalRuleConfig.json c.conditionalRules)),
    ("content_rules", some (Json.list ContentRuleConfig.json c.contentRules)),
    ("ab_variants", some (Json.list ABVariantConfig.json c.abVariants)),
    ("strategy_fallback", some (orNull Target.json c.strategyFallback))]

/-! ### The whole -/

/-- `AdminConfig`: the master key. -/
def decodeAdmin (v : Json) : Option (Option String) := do
  guard (v.elements.length ≤ 1)
  let masterKey ← defaultField v 0 "master_key" none (option string)
  return masterKey

/-- `GuardrailsConfig`: the `pii` section. -/
def decodeGlobalGuardrails (v : Json) : Option PiiGuardrailConfig := do
  guard (v.elements.length ≤ 1)
  let pii ← defaultField v 0 "pii" .default decodePii
  return pii

/-- `Config`. -/
def decodeConfig (v : Json) : Option Config := do
  guard (v.elements.length ≤ 9)
  let strategy ← defaultField v 0 "strategy" .default decodeStrategy
  let targets ← defaultField v 1 "targets" [] (array decodeTarget)
  let rateLimit ← defaultField v 3 "rate_limit" .default decodeRateLimit
  let masterKey ← defaultField v 4 "admin" none decodeAdmin
  let orgs ← defaultField v 5 "orgs" .empty (map decodeOrg)
  let rbac ← defaultField v 7 "rbac" .default decodeRbac
  let pii ← defaultField v 8 "guardrails" .default decodeGlobalGuardrails
  return { strategy, targets, rateLimit, masterKey, orgs, rbac, pii }

/-- `Config`, with its organisations and its roles in the order they are iterated in. The master key
is skipped. -/
def Config.json (c : Config) (orgs : List (String × Json)) (rbac : Json) : Json :=
  .record [("strategy", some c.strategy.json), ("targets", some (Json.list Target.json c.targets)),
    ("rate_limit", some c.rateLimit.json), ("admin", some (.record [])),
    ("orgs", some (.object orgs)), ("rbac", some rbac),
    ("guardrails", some (.record [("pii", some c.pii.json)]))]

/-! ### What fits -/

/-- The limits fit their types. -/
def RateLimitConfig.Fits (c : RateLimitConfig) : Prop :=
  c.requestsPerSecond < UInt64.size ∧ c.burstSize < UInt64.size

/-- The budgets fit their types. -/
def OrgTokenBudget.Fits (b : OrgTokenBudget) : Prop :=
  (∀ n ∈ b.maxTokensPerRequest, n < UInt32.size) ∧ (∀ n ∈ b.maxTokensPerDay, n < UInt64.size) ∧
    ∀ n ∈ b.maxTokensPerMonth, n < UInt64.size

/-- The cap fits its type. -/
def OrgGuardrailConfig.Fits (c : OrgGuardrailConfig) : Prop :=
  ∀ n ∈ c.maxTokensPerRequest, n < UInt32.size

/-- The numbers of a team fit their types. -/
structure TeamConfig.Fits (c : TeamConfig) : Prop where
  rateLimit : ∀ r ∈ c.rateLimit, r.Fits
  tokenBudget : ∀ b ∈ c.tokenBudget, b.Fits
  guardrails : c.guardrails.Fits

/-- The numbers of an organisation fit their types, and its teams can be iterated. -/
structure OrgConfig.Fits (c : OrgConfig) : Prop where
  rateLimit : ∀ r ∈ c.rateLimit, r.Fits
  tokenBudget : ∀ b ∈ c.tokenBudget, b.Fits
  guardrails : c.guardrails.Fits
  finite : ∃ entries, c.teams.IteratedAs entries
  teams : ∀ name t, c.teams.get name = some t → t.Fits

/-- Every number fits its type, and every map can be iterated: what any value of the source's type
does. -/
structure Config.Fits (c : Config) : Prop where
  strategy : c.strategy.fallbackTimeoutMs < UInt64.size
  rateLimit : c.rateLimit.Fits
  orgsFinite : ∃ entries, c.orgs.IteratedAs entries
  orgs : ∀ name o, c.orgs.get name = some o → o.Fits
  rolesFinite : ∃ entries, c.rbac.roles.IteratedAs entries

/-! ### What may be written -/

/-- An organisation may be written so. -/
def OrgConfig.Writes (c : OrgConfig) (v : Json) : Prop :=
  ∃ teams, WrittenMembers (fun t v ↦ v = TeamConfig.json t) c.teams teams ∧ v = c.json teams

/-- The roles may be written so. -/
def RbacConfig.Writes (c : RbacConfig) (v : Json) : Prop :=
  ∃ roles, WrittenMembers (fun p v ↦ v = RolePolicy.json p) c.roles roles ∧ v = c.json roles

/-- The configuration may be written so. -/
def Config.Writes (c : Config) (v : Json) : Prop :=
  ∃ orgs rbac,
    WrittenMembers OrgConfig.Writes c.orgs orgs ∧ c.rbac.Writes rbac ∧ v = c.json orgs rbac

/-! ### Reading back -/

section ReadBack

theorem array_string (l : List String) : array string (Json.list .string l) = some l :=
  array_list fun _ _ ↦ rfl

theorem option_strings (o : Option (List String)) :
    option (array string) (orNull (Json.list .string) o) = some o :=
  option_orNull (fun l _ ↦ array_string l) list_ne_null

theorem option_nat {size : ℕ} {o : Option ℕ} (h : ∀ n ∈ o, n < size) :
    option (unsigned size) (orNull Json.nat o) = some o :=
  option_orNull (fun n hn ↦ unsigned_nat (h n hn)) fun _ hnull ↦ by cases hnull

theorem option_float (o : Option ℚ) : option f64 (orNull floatJson o) = some o :=
  option_orNull (fun _ _ ↦ rfl) fun _ h ↦ by cases h

theorem decodeTarget_json (t : Target) : decodeTarget t.json = some t := by
  rw [decodeTarget, Target.json]
  simp (disch := (simp only [List.map_cons, List.map_nil]; decide)) only [structField_record,
    List.lookup_cons, String.reduceBEq, BEq.rfl, Option.join_some, Option.elim_some, option_string,
    option_strings]
  rfl

theorem decodePii_json (c : PiiGuardrailConfig) : decodePii c.json = some c := by
  have hmode (m : PiiModeConfig) : decodePiiMode m.json = some m := by rcases m <;> rfl
  have hstrategy (s : PiiStrategyConfig) : decodePiiStrategy s.json = some s := by
    rcases s <;> rfl
  have hresponse (m : PiiResponseModeConfig) : decodePiiResponseMode m.json = some m := by
    rcases m <;> rfl
  rw [decodePii, PiiGuardrailConfig.json]
  simp (disch := (simp only [List.map_cons, List.map_nil]; decide)) only [defaultField,
    structField_record, List.lookup_cons, String.reduceBEq, BEq.rfl, Option.join_some,
    Option.elim_some, option_strings, array_string, hmode, hstrategy, hresponse]
  rfl

theorem decodeContentFilter_json (c : ContentFilterConfig) :
    decodeContentFilter c.json = some c := by
  rw [decodeContentFilter, ContentFilterConfig.json]
  simp (disch := (simp only [List.map_cons, List.map_nil]; decide)) only [defaultField,
    structField_record, List.lookup_cons, String.reduceBEq, BEq.rfl, Option.join_some,
    Option.elim_some, array_string]
  rfl

theorem decodeGuardrails_json {c : OrgGuardrailConfig} (h : c.Fits) :
    decodeGuardrails c.json = some c := by
  have hfilter (o : Option ContentFilterConfig) :
      option decodeContentFilter (orNull ContentFilterConfig.json o) = some o :=
    option_orNull (fun f _ ↦ decodeContentFilter_json f) fun _ ↦ record_ne_null _
  have hpii (o : Option PiiGuardrailConfig) :
      (o.map PiiGuardrailConfig.json).elim (some none) (option decodePii) = some o := by
    rcases o with - | pii
    · rfl
    · show option decodePii (orNull PiiGuardrailConfig.json (some pii)) = some (some pii)
      exact option_orNull (fun p _ ↦ decodePii_json p) fun _ ↦ record_ne_null _
  rw [decodeGuardrails, OrgGuardrailConfig.json]
  simp (disch := (simp only [List.map_cons, List.map_nil]; decide)) only [defaultField,
    structField_record, List.lookup_cons, String.reduceBEq, BEq.rfl, Option.join_some,
    Option.elim_some, array_string, option_nat h, hfilter, hpii]
  rfl

theorem decodeRateLimit_json {c : RateLimitConfig} (h : c.Fits) :
    decodeRateLimit c.json = some c := by
  rw [decodeRateLimit, RateLimitConfig.json]
  simp (disch := (simp only [List.map_cons, List.map_nil]; decide)) only [defaultField,
    structField_record, List.lookup_cons, String.reduceBEq, BEq.rfl, Option.join_some,
    Option.elim_some, unsigned_nat h.1, unsigned_nat h.2]
  rfl

theorem deserialize_json {b : OrgTokenBudget} (h : b.Fits) :
    OrgTokenBudget.deserialize b.json = some b := by
  rw [OrgTokenBudget.json, Json.record, OrgTokenBudget.deserialize]
  simp (disch := (simp only [List.map_cons, List.map_nil]; decide)) only [field_record,
    List.lookup_cons, String.reduceBEq, BEq.rfl, Option.join_some, Option.elim_some,
    option_nat h.1, option_nat h.2.1, option_nat h.2.2, option_float]
  rfl

theorem option_rateLimit {o : Option RateLimitConfig} (h : ∀ r ∈ o, r.Fits) :
    option decodeRateLimit (orNull RateLimitConfig.json o) = some o :=
  option_orNull (fun r hr ↦ decodeRateLimit_json (h r hr)) fun _ ↦ record_ne_null _

theorem option_budget {o : Option OrgTokenBudget} (h : ∀ b ∈ o, b.Fits) :
    option OrgTokenBudget.deserialize (orNull OrgTokenBudget.json o) = some o :=
  option_orNull (fun b hb ↦ deserialize_json (h b hb)) fun _ ↦ record_ne_null _

theorem decodeTeam_json {c : TeamConfig} (h : c.Fits) : decodeTeam c.json = some c := by
  rw [decodeTeam, TeamConfig.json]
  simp (disch := (simp only [List.map_cons, List.map_nil]; decide)) only [defaultField,
    structField_record, List.lookup_cons, String.reduceBEq, BEq.rfl, Option.join_some,
    Option.elim_some, option_string, option_strings, option_rateLimit h.rateLimit,
    option_budget h.tokenBudget, decodeGuardrails_json h.guardrails]
  rfl

theorem decodeOrg_written {c : OrgConfig} {v : Json} (h : c.Fits) (hv : c.Writes v) :
    decodeOrg v = some c := by
  obtain ⟨teams, hteams, rfl⟩ := hv
  have hread : map decodeTeam (.object teams) = some c.teams := by
    refine map_written hteams fun name t v hget hv ↦ ?_
    rw [hv, decodeTeam_json (h.teams name t hget)]
  rw [decodeOrg, OrgConfig.json]
  simp (disch := (simp only [List.map_cons, List.map_nil]; decide)) only [defaultField,
    structField_record, List.lookup_cons, String.reduceBEq, BEq.rfl, Option.join_some,
    Option.elim_some, option_string, option_strings, option_rateLimit h.rateLimit,
    option_budget h.tokenBudget, decodeGuardrails_json h.guardrails, hread]
  rfl

theorem decodeRolePolicy_json (p : RolePolicy) : decodeRolePolicy p.json = some p := by
  rw [decodeRolePolicy, RolePolicy.json]
  simp (disch := (simp only [List.map_cons, List.map_nil]; decide)) only [defaultField,
    structField_record, List.lookup_cons, String.reduceBEq, BEq.rfl, Option.join_some,
    Option.elim_some, option_strings]
  rfl

theorem decodeRbac_written {c : RbacConfig} {v : Json} (hv : c.Writes v) :
    decodeRbac v = some c := by
  obtain ⟨roles, hroles, rfl⟩ := hv
  have hread : map decodeRolePolicy (.object roles) = some c.roles :=
    map_written hroles fun _ p _ _ hv ↦ hv ▸ decodeRolePolicy_json p
  rw [decodeRbac, RbacConfig.json]
  simp (disch := (simp only [List.map_cons, List.map_nil]; decide)) only [defaultField,
    structField_record, List.lookup_cons, String.reduceBEq, BEq.rfl, Option.join_some,
    Option.elim_some, option_string, hread]
  rfl

theorem decodeConditionalRule_json (r : ConditionalRuleConfig) :
    decodeConditionalRule r.json = some r := by
  have hkey (k : ConditionKeyConfig) : decodeConditionKey k.json = some k := by rcases k <;> rfl
  rw [decodeConditionalRule, ConditionalRuleConfig.json]
  simp (disch := (simp only [List.map_cons, List.map_nil]; decide)) only [structField_record,
    List.lookup_cons, String.reduceBEq, BEq.rfl, Option.join_some, Option.elim_some, hkey,
    decodeTarget_json]
  rfl

theorem decodeContentRule_json (r : ContentRuleConfig) : decodeContentRule r.json = some r := by
  have htype (c : ContentConditionTypeConfig) : decodeContentConditionType c.json = some c := by
    rcases c <;> rfl
  rw [decodeContentRule, ContentRuleConfig.json]
  simp (disch := (simp only [List.map_cons, List.map_nil]; decide)) only [structField_record,
    List.lookup_cons, String.reduceBEq, BEq.rfl, Option.join_some, Option.elim_some, htype,
    decodeTarget_json]
  rfl

theorem decodeAbVariant_json (c : ABVariantConfig) : decodeAbVariant c.json = some c := by
  rw [decodeAbVariant, ABVariantConfig.json]
  simp (disch := (simp only [List.map_cons, List.map_nil]; decide)) only [defaultField,
    structField_record, List.lookup_cons, String.reduceBEq, BEq.rfl, Option.join_some,
    Option.elim_some, decodeTarget_json]
  rfl

theorem decodeStrategy_json {c : StrategyConfig} (h : c.fallbackTimeoutMs < UInt64.size) :
    decodeStrategy c.json = some c := by
  have hmode (m : StrategyMode) : decodeStrategyMode m.json = some m := by rcases m <;> rfl
  have hfallback (o : Option Target) :
      option decodeTarget (orNull Target.json o) = some o :=
    option_orNull (fun t _ ↦ decodeTarget_json t) fun _ ↦ record_ne_null _
  rw [decodeStrategy, StrategyConfig.json]
  simp (disch := (simp only [List.map_cons, List.map_nil]; decide)) only [defaultField,
    structField_record, List.lookup_cons, String.reduceBEq, BEq.rfl, Option.join_some,
    Option.elim_some, hmode, unsigned_nat h, hfallback,
    array_list fun r (_ : r ∈ c.conditionalRules) ↦ decodeConditionalRule_json r,
    array_list fun r (_ : r ∈ c.contentRules) ↦ decodeContentRule_json r,
    array_list fun r (_ : r ∈ c.abVariants) ↦ decodeAbVariant_json r]
  rfl

/-- **What is written reads back** as what it was but for the master key. -/
theorem Config.Fits.decode_written {c : Config} {v : Json} (h : c.Fits) (hv : c.Writes v) :
    decodeConfig v = some { c with masterKey := none } := by
  obtain ⟨orgs, rbac, horgs, hrbac, rfl⟩ := hv
  have hread : map decodeOrg (.object orgs) = some c.orgs :=
    map_written horgs fun name o _ hget ho ↦ decodeOrg_written (h.orgs name o hget) ho
  have hadmin : decodeAdmin (.record []) = some none := rfl
  have hpii : decodeGlobalGuardrails (.record [("pii", some c.pii.json)]) = some c.pii := by
    rw [decodeGlobalGuardrails]
    simp (disch := (simp only [List.map_cons, List.map_nil]; decide)) only [defaultField,
      structField_record, List.lookup_cons, BEq.rfl, Option.join_some, Option.elim_some,
      decodePii_json]
    rfl
  rw [decodeConfig, Config.json]
  simp (disch := (simp only [List.map_cons, List.map_nil]; decide)) only [defaultField,
    structField_record, List.lookup_cons, String.reduceBEq, BEq.rfl, Option.join_some,
    Option.elim_some, decodeStrategy_json h.strategy,
    array_list fun t (_ : t ∈ c.targets) ↦ decodeTarget_json t,
    decodeRateLimit_json h.rateLimit, hadmin, hread, decodeRbac_written hrbac, hpii]
  rfl

end ReadBack

/-! ### What was read fits -/

section Fits

theorem yields_rateLimit : Yields decodeRateLimit RateLimitConfig.Fits := by
  intro v c h
  simp only [decodeRateLimit, Option.bind_eq_bind, Option.bind_eq_some_iff] at h
  obtain ⟨-, -, enabled, -, rps, hrps, burst, hburst, h⟩ := h
  obtain rfl := Option.some.inj h
  exact ⟨(yields_unsigned _).field (by decide) hrps, (yields_unsigned _).field (by decide) hburst⟩

theorem yields_budget : Yields OrgTokenBudget.deserialize OrgTokenBudget.Fits := by
  have hnone {size : ℕ} : ∀ n ∈ (none : Option ℕ), n < size := fun _ h ↦ by cases h
  intro v b h
  rw [OrgTokenBudget.deserialize.eq_def] at h
  split at h
  · next members =>
    simp only [Option.bind_eq_bind, Option.bind_eq_some_iff] at h
    obtain ⟨request, hrequest, day, hday, month, hmonth, cost, -, monthly, -, h⟩ := h
    obtain rfl := Option.some.inj h
    exact ⟨(yields_unsigned _).option.member hnone hrequest,
      (yields_unsigned _).option.member hnone hday, (yields_unsigned _).option.member hnone hmonth⟩
  · next items =>
    obtain ⟨-, h⟩ := Option.ite_none_right_eq_some.1 h
    simp only [Option.bind_eq_bind, Option.bind_eq_some_iff] at h
    obtain ⟨request, hrequest, day, hday, month, hmonth, cost, -, monthly, -, h⟩ := h
    obtain rfl := Option.some.inj h
    exact ⟨(yields_unsigned _).option.element hnone hrequest,
      (yields_unsigned _).option.element hnone hday,
      (yields_unsigned _).option.element hnone hmonth⟩
  · cases h

theorem yields_guardrails : Yields decodeGuardrails OrgGuardrailConfig.Fits := by
  intro v c h
  simp only [decodeGuardrails, Option.bind_eq_bind, Option.bind_eq_some_iff] at h
  obtain ⟨-, -, enabled, -, words, -, tokens, htokens, filter, -, pii, -, h⟩ := h
  obtain rfl := Option.some.inj h
  exact (yields_unsigned _).option.field (fun _ hnone ↦ by cases hnone) htokens

theorem OrgGuardrailConfig.fits_default : OrgGuardrailConfig.default.Fits := fun _ h ↦ by cases h

theorem yields_team : Yields decodeTeam TeamConfig.Fits := by
  intro v c h
  simp only [decodeTeam, Option.bind_eq_bind, Option.bind_eq_some_iff] at h
  obtain ⟨-, -, name, -, enabled, -, allowed, -, blocked, -, rateLimit, hrate, budget, hbudget,
    guardrails, hguardrails, h⟩ := h
  obtain rfl := Option.some.inj h
  exact ⟨yields_rateLimit.option.field (fun _ hnone ↦ by cases hnone) hrate,
    yields_budget.option.field (fun _ hnone ↦ by cases hnone) hbudget,
    yields_guardrails.field OrgGuardrailConfig.fits_default hguardrails⟩

theorem yields_org : Yields decodeOrg OrgConfig.Fits := by
  intro v c h
  simp only [decodeOrg, Option.bind_eq_bind, Option.bind_eq_some_iff] at h
  obtain ⟨-, -, name, -, enabled, -, allowed, -, blocked, -, rateLimit, hrate, budget, hbudget,
    guardrails, hguardrails, teams, hteams, h⟩ := h
  obtain rfl := Option.some.inj h
  obtain ⟨hfinite, hfits⟩ := yields_team.map.field
    ⟨⟨[], KeyMap.iteratedAs_empty⟩, fun _ _ hnone ↦ by cases hnone⟩ hteams
  exact ⟨yields_rateLimit.option.field (fun _ hnone ↦ by cases hnone) hrate,
    yields_budget.option.field (fun _ hnone ↦ by cases hnone) hbudget,
    yields_guardrails.field OrgGuardrailConfig.fits_default hguardrails, hfinite, hfits⟩

/-- The roles that were read can be iterated. -/
theorem yields_rbac : Yields decodeRbac fun c ↦ ∃ entries, c.roles.IteratedAs entries := by
  intro v c h
  simp only [decodeRbac, Option.bind_eq_bind, Option.bind_eq_some_iff] at h
  obtain ⟨-, -, enabled, -, roles, hroles, defaultRole, -, h⟩ := h
  obtain rfl := Option.some.inj h
  have hany : Yields decodeRolePolicy fun _ ↦ True := fun _ _ _ ↦ trivial
  exact (hany.map.field ⟨⟨[], KeyMap.iteratedAs_empty⟩, fun _ _ _ ↦ trivial⟩ hroles).1

theorem yields_strategy : Yields decodeStrategy (·.fallbackTimeoutMs < UInt64.size) := by
  intro v c h
  simp only [decodeStrategy, Option.bind_eq_bind, Option.bind_eq_some_iff] at h
  obtain ⟨-, -, mode, -, timeout, htimeout, rules, -, contents, -, variants, -, fallback, -, h⟩ := h
  obtain rfl := Option.some.inj h
  exact (yields_unsigned _).field (by decide) htimeout

/-- A configuration that was read fits. -/
theorem Config.fits_of_decode {v : Json} {c : Config} (h : decodeConfig v = some c) : c.Fits := by
  simp only [decodeConfig, Option.bind_eq_bind, Option.bind_eq_some_iff] at h
  obtain ⟨-, -, strategy, hstrategy, targets, -, rateLimit, hrate, masterKey, -, orgs, horgs, rbac,
    hrbac, pii, -, h⟩ := h
  obtain rfl := Option.some.inj h
  obtain ⟨hfinite, hfits⟩ := yields_org.map.field
    ⟨⟨[], KeyMap.iteratedAs_empty⟩, fun _ _ hnone ↦ by cases hnone⟩ horgs
  exact ⟨yields_strategy.field (by decide) hstrategy,
    yields_rateLimit.field ⟨by decide, by decide⟩ hrate, hfinite, hfits,
    yields_rbac.field ⟨[], KeyMap.iteratedAs_empty⟩ hrbac⟩

end Fits

/-! ### What fits can be written -/

theorem OrgConfig.Fits.exists_written {c : OrgConfig} (h : c.Fits) : ∃ v, c.Writes v := by
  obtain ⟨entries, hentries⟩ := h.finite
  obtain ⟨teams, hteams⟩ : ∃ teams,
      WrittenMembers (fun t v ↦ v = TeamConfig.json t) c.teams teams :=
    exists_writtenMembers hentries fun _ t _ ↦ ⟨t.json, rfl⟩
  exact ⟨_, teams, hteams, rfl⟩

theorem Config.Fits.exists_written {c : Config} (h : c.Fits) : ∃ v, c.Writes v := by
  obtain ⟨entries, hentries⟩ := h.orgsFinite
  obtain ⟨orgs, horgs⟩ := exists_writtenMembers hentries fun name o hget ↦
    (h.orgs name o hget).exists_written
  obtain ⟨roleEntries, hroleEntries⟩ := h.rolesFinite
  obtain ⟨roles, hroles⟩ :
      ∃ roles, WrittenMembers (fun p v ↦ v = RolePolicy.json p) c.rbac.roles roles :=
    exists_writtenMembers hroleEntries fun _ p _ ↦ ⟨p.json, rfl⟩
  exact ⟨_, orgs, _, horgs, ⟨roles, hroles, rfl⟩, rfl⟩

/-- A file with a target and a master key, and an organisation with a team that blocks what it
detects. -/
def oneTeamFile : Json :=
  let pii : Json := .object [("mode", .string "block")]
  let team : Json := .object [("guardrails", .object [("pii", pii)])]
  let org : Json := .object [("enabled", .bool true), ("teams", .object [("blue", team)])]
  .object [("targets", .array [.object [("provider", .string "openai")]]),
    ("admin", .object [("master_key", .string "secret")]), ("orgs", .object [("acme", org)])]

end Himadri
