import Himadri.Core.Config

/-!
# Scopes

`himadri-core`'s walk from the organisation and team of a principal to the sections of the
configuration that apply to it, the least specific first.
-/

namespace Himadri

/-- `ScopeKind`. -/
inductive ScopeKind
  | org
  | team
  deriving DecidableEq

/-- `ScopeKind::as_str`. -/
def ScopeKind.asStr : ScopeKind → String
  | .org => "org"
  | .team => "team"

/-- `Scope`. -/
structure Scope where
  kind : ScopeKind
  id : String
  allowedModels : Option (List String)
  blockedModels : Option (List String)
  tokenBudget : Option OrgTokenBudget
  guardrails : OrgGuardrailConfig

/-- The scope of an organisation. -/
def OrgConfig.scope (org : OrgConfig) (id : String) : Scope where
  kind := .org
  id
  allowedModels := org.allowedModels
  blockedModels := org.blockedModels
  tokenBudget := org.tokenBudget
  guardrails := org.guardrails

/-- The scope of a team. -/
def TeamConfig.scope (team : TeamConfig) (id : String) : Scope where
  kind := .team
  id
  allowedModels := team.allowedModels
  blockedModels := team.blockedModels
  tokenBudget := team.tokenBudget
  guardrails := team.guardrails

/-- `Config::scopes`. -/
def Config.scopes (config : Config) (orgId teamId : Option String) : List Scope :=
  match orgId with
  | none => []
  | some orgId =>
    match config.orgs.get orgId with
    | none => []
    | some org =>
      org.scope orgId ::
        match teamId with
        | none => []
        | some teamId => ((org.teams.get teamId).map (·.scope teamId)).toList

end Himadri
