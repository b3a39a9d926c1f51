import Himadri.Core.Scope
import Himadri.Core.Text
import Himadri.Plugins.PiiRequest
import Himadri.Plugins.PiiResponse

/-!
# The PII section that governs a request

`effective_settings` of the two PII guardrails. Each walks the scopes of the principal from the most
specific one and falls back on the global section and then on its defaults. `governed` says what
they resolve to: the section of the team, or else of the organisation, decides alone where there is
one, and it is the same section for both.
-/

namespace Himadri

/-! ### Settings of a section -/

/-- `parse_roles`. -/
def parseRoles (names : List String) : List Role :=
  names.filterMap fun name ↦
    match Text.toAsciiLowercase name with
    | "user" => some .user
    | "system" => some .system
    | "assistant" => some .assistant
    | "tool" => some .tool
    | _ => none

/-- The strategy of a section. -/
def PiiStrategyConfig.strategy : PiiStrategyConfig → RedactStrategy
  | .replace => .replace
  | .mask => .mask
  | .hash => .hash
  | .encrypt => .encrypt
  | .remove => .remove

/-- `PiiGuardrailSettings::from_config`. -/
def PiiGuardrailSettings.fromConfig (cfg : PiiGuardrailConfig) : PiiGuardrailSettings where
  mode :=
    match cfg.mode with
    | .redact => .redact
    | .block => .block
    | .observe => .observe
  options :=
    { strategy := cfg.strategy.strategy
      entities := cfg.entities.map fun list ↦
        (list.map fun e ↦ Text.toAsciiUppercase (Text.trim e)).filter (!·.isEmpty)
      minConfidence := cfg.minConfidence }
  applyTo := parseRoles cfg.applyTo
  scanToolArguments := cfg.scanToolArguments
  failOpen := cfg.failOpen

/-- `PiiResponseSettings::from_config`. -/
def PiiResponseSettings.fromConfig (cfg : PiiGuardrailConfig) : PiiResponseSettings :=
  let requestSide := PiiGuardrailSettings.fromConfig cfg
  { mode :=
      match cfg.responseMode with
      | .off => .off
      | .observe => .observe
      | .redact => .redact
      | .block => .block
    options := requestSide.options
    failOpen := requestSide.failOpen }

/-! ### Resolution -/

/-- `PluginContext::org_id`. -/
def PluginContext.orgId (ctx : PluginContext) : Option String := ctx.auth.bind (·.orgId)

/-- `PluginContext::team_id`. -/
def PluginContext.teamId (ctx : PluginContext) : Option String := ctx.auth.bind (·.teamId)

/-- `scoped_pii_section`. -/
def scopedPiiSection (cfg : Config) (ctx : PluginContext) : Option PiiGuardrailConfig :=
  (cfg.scopes ctx.orgId ctx.teamId).reverse.findSome? (·.guardrails.pii)

/-- `PiiGuardrailPlugin::effective_settings`. The handle of the configuration may be absent. -/
def PiiGuardrailPlugin.effectiveSettings (defaults : Option PiiGuardrailSettings)
    (config : Option Config) (ctx : PluginContext) : Option PiiGuardrailSettings :=
  match config with
  | none => defaults
  | some cfg =>
    match scopedPiiSection cfg ctx with
    | some pii => if pii.enabled then some (.fromConfig pii) else none
    | none => if cfg.pii.enabled then some (.fromConfig cfg.pii) else defaults

/-- `active`. -/
def PiiResponseGuardrail.active (cfg : PiiGuardrailConfig) : Option PiiResponseSettings :=
  if cfg.enabled && decide (cfg.responseMode ≠ .off) then some (.fromConfig cfg) else none

/-- `PiiResponseGuardrail::effective_settings`. -/
def PiiResponseGuardrail.effectiveSettings (defaults : Option PiiResponseSettings)
    (config : Option Config) (ctx : PluginContext) : Option PiiResponseSettings :=
  match config with
  | none => defaults
  | some cfg =>
    match scopedPiiSection cfg ctx with
    | some pii => active pii
    | none =>
      match active cfg.pii with
      | some settings => some settings
      | none => defaults

/-- `PiiGuardrailPlugin::with_config`, with the configuration it reads. -/
def PiiGuardrailPlugin.withConfig (engine : PiiEngine) (defaults : Option PiiGuardrailSettings)
    (config : Config) (inlineLimitBytes : ℕ) : PiiGuardrailPlugin where
  engine
  settings := effectiveSettings defaults (some config)
  inlineLimitBytes

/-- `PiiResponseGuardrail::with_config`, with the configuration it reads. -/
def PiiResponseGuardrail.withConfig (engine : PiiEngine) (panics : String → Option String)
    (defaults : Option PiiResponseSettings) (config : Config) (inlineLimitBytes : ℕ) :
    PiiResponseGuardrail where
  engine
  panics
  settings := effectiveSettings defaults (some config)
  inlineLimitBytes

/-! ### What governs -/

/-- The organisation of the principal, where it is configured. -/
def orgSection (config : Config) (ctx : PluginContext) : Option OrgConfig :=
  ctx.orgId.bind config.orgs.get

/-- The team of the principal, where it is configured under its organisation. -/
def teamSection (config : Config) (ctx : PluginContext) : Option TeamConfig :=
  (orgSection config ctx).bind fun org ↦ ctx.teamId.bind org.teams.get

/-- The PII section of the team, or else of the organisation. -/
def scopedSection (config : Config) (ctx : PluginContext) : Option PiiGuardrailConfig :=
  ((teamSection config ctx).bind (·.guardrails.pii)).or
    ((orgSection config ctx).bind (·.guardrails.pii))

/-- What is in force on one side: the section of the scope decides alone where there is one, or else
the global section where it is active for that side, or else the side's default. -/
def governed {σ : Type} (active : PiiGuardrailConfig → Bool) (settings : PiiGuardrailConfig → σ)
    (default : Option σ) (config : Config) (ctx : PluginContext) : Option σ :=
  match scopedSection config ctx with
  | some pii => if active pii then some (settings pii) else none
  | none => if active config.pii then some (settings config.pii) else default

/-- Requests are scanned under the section. -/
def PiiGuardrailConfig.scansRequests (cfg : PiiGuardrailConfig) : Bool := cfg.enabled

/-- Responses are scanned under the section. -/
def PiiGuardrailConfig.scansResponses (cfg : PiiGuardrailConfig) : Bool :=
  cfg.enabled && decide (cfg.responseMode ≠ .off)

section Resolution

variable {config : Config} {ctx : PluginContext}

theorem scopedPiiSection_eq (config : Config) (ctx : PluginContext) :
    scopedPiiSection config ctx = scopedSection config ctx := by
  rw [scopedPiiSection, scopedSection, teamSection, orgSection]
  unfold Config.scopes
  rcases ctx.orgId with - | orgId
  · rfl
  rcases horg : config.orgs.get orgId with - | org
  · simp [horg]
  rcases ctx.teamId with - | teamId
  · simp [horg, OrgConfig.scope]
  · rcases hteam : org.teams.get teamId with - | team
    · simp [horg, hteam, OrgConfig.scope]
    · rcases hpii : team.guardrails.pii with - | pii
      · simp [horg, hteam, hpii, OrgConfig.scope, TeamConfig.scope]
      · simp [horg, hteam, hpii, TeamConfig.scope]

theorem effectiveSettings_request (defaults : Option PiiGuardrailSettings) :
    PiiGuardrailPlugin.effectiveSettings defaults (some config) ctx =
      governed PiiGuardrailConfig.scansRequests .fromConfig defaults config ctx := by
  rw [PiiGuardrailPlugin.effectiveSettings, governed, scopedPiiSection_eq]
  rfl

theorem effectiveSettings_response (defaults : Option PiiResponseSettings) :
    PiiResponseGuardrail.effectiveSettings defaults (some config) ctx =
      governed PiiGuardrailConfig.scansResponses .fromConfig defaults config ctx := by
  rw [PiiResponseGuardrail.effectiveSettings, governed, scopedPiiSection_eq]
  rcases scopedSection config ctx with - | pii
  · dsimp only
    rw [PiiResponseGuardrail.active, PiiGuardrailConfig.scansResponses]
    split_ifs
    · rfl
    · rfl
  · rfl

/-- The organisation's section is not read where the team has one. -/
theorem scopedSection_of_team {team : TeamConfig} {pii : PiiGuardrailConfig}
    (hteam : teamSection config ctx = some team) (hpii : team.guardrails.pii = some pii) :
    scopedSection config ctx = some pii := by
  rw [scopedSection, hteam, Option.bind_some, hpii, Option.some_or]

theorem teamSection_setOrg {orgId : String} {org org' : OrgConfig} (horgId : ctx.orgId = some orgId)
    (horg : config.orgs.get orgId = some org) (hteams : org'.teams = org.teams) :
    teamSection { config with orgs := config.orgs.insert orgId org' } ctx =
      teamSection config ctx := by
  simp [teamSection, orgSection, horgId, horg, hteams]

/-- What is in force is of the one section that governs, or the default. -/
theorem eq_of_governed {σ : Type} {active : PiiGuardrailConfig → Bool}
    {settings : PiiGuardrailConfig → σ} {default : Option σ} {s : σ}
    (h : governed active settings default config ctx = some s) :
    s = settings ((scopedSection config ctx).getD config.pii) ∨
      scopedSection config ctx = none ∧ default = some s := by
  rw [governed] at h
  rcases hsection : scopedSection config ctx with - | pii
  · rw [hsection] at h
    dsimp only at h
    split_ifs at h
    · exact .inl (Option.some.inj h).symm
    · exact .inr ⟨rfl, h⟩
  · rw [hsection] at h
    exact .inl (Option.some.inj (Option.ite_none_right_eq_some.1 h).2).symm

end Resolution

end Himadri
