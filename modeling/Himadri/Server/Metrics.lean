import Himadri.Gateway.Config
import Himadri.Gateway.Rebuild
import Himadri.Provider.Registry
import Himadri.Server.CombinedAuth
import Himadri.Transition.System

/-!
# The metrics endpoint and the configuration handlers

`metrics_handler` expects the master key of the live configuration, and three handlers replace that
configuration: `reload_config` from the file, which does not hold what the variable overrode,
`update_config` from a request body, which does not hold what is never serialised, and
`config_rollback` from the history. Runs are sequences of their calls, successful or not.
-/

namespace Himadri

/-- `ApiError`. -/
structure ApiError where
  status : ℕ
  message : String
  deriving DecidableEq

namespace Gateway

section Handlers

variable (vars : String → Option String) (regexNew : String → Option Regex)
  (registry : ProviderRegistry) (g : Gateway)

/-- The token the metrics are behind, if any. -/
def metricsToken : Option String :=
  ((vars "METRICS_TOKEN").or g.config.masterKey).filter (!·.isEmpty)

/-- `metrics_handler`: whether the metrics are given out. -/
def metricsHandler (authorization : Option String) : Except ApiError Unit :=
  match g.metricsToken vars with
  | none => .ok ()
  | some expected =>
    if (authorization.bind (Text.stripPrefix · "Bearer ")).any fun presented ↦
        constantTimeEq presented.toUTF8.data.toList expected.toUTF8.data.toList then
      .ok ()
    else .error ⟨401, "unauthorized"⟩

/-- What the two model tables answer; `none` where one of them fails. -/
abbrev ModelTables : Type := Option (List Model × List ModelEndpoint)

/-- `AppState::reassert_db_targets_after_config`. -/
def reassertDbTargets (tables : ModelTables) : Gateway :=
  match tables with
  | some (models, endpoints) =>
    (g.rebuildTargetsFromDb registry models endpoints .keepPrevious).1
  | none => g

/-- The end of a handler that applied a configuration. -/
def answerApplied (tables : ModelTables) :
    Gateway × Except GatewayError Unit → Gateway × Except ApiError Unit
  | (g', .ok ()) => (g'.reassertDbTargets registry tables, .ok ())
  | (g', .error e) => (g', .error ⟨400, e.display⟩)

/-- The handler `reload_config`; `loaded` is what `Config::load_from_env` returns. -/
def reloadConfigHandler (loaded : Except ConfigError Config) (tables : ModelTables) :
    Gateway × Except ApiError Unit :=
  match loaded with
  | .ok config => answerApplied registry tables (g.reloadConfig regexNew config)
  | .error e => (g, .error ⟨400, "Failed to load config: " ++ e.display⟩)

/-- The handler `update_config`. -/
def updateConfig (body : Config) (tables : ModelTables) : Gateway × Except ApiError Unit :=
  answerApplied registry tables (g.reloadConfig regexNew body)

/-- The handler `config_rollback`. -/
def configRollback (version : ℕ) (tables : ModelTables) : Gateway × Except ApiError Unit :=
  answerApplied registry tables (g.rollbackConfig regexNew version)

/-- The handler `get_config`, as its body is read back: the master key is never serialised. -/
def getConfigBody : Config := { g.config with masterKey := none }

end Handlers

/-! ### Runs -/

/-- A call of a configuration handler, with what the tables answer to it. -/
inductive ConfigRequest
  | reload (loaded : Except ConfigError Config)
  | update (body : Config)
  | rollback (version : ℕ)

section Runs

variable {κ : Type*} (e : BootEnv κ) (regexNew : String → Option Regex)
  (registry : ProviderRegistry)

/-- One call. -/
def handle (g : Gateway) (request : ConfigRequest) (tables : ModelTables) : Gateway :=
  match request with
  | .reload loaded => (g.reloadConfigHandler regexNew registry loaded tables).1
  | .update body => (g.updateConfig regexNew registry body tables).1
  | .rollback version => (g.configRollback regexNew registry version tables).1

/-- The runs of a gateway booted from an environment, with any clients and tables. -/
def handlerRuns : TransitionSystem Gateway (ConfigRequest × ModelTables) where
  Init g := ∃ (clients : KeyMap String ProviderClient) (tables : ModelTables),
    g = reassertDbTargets registry
      { Gateway.new regexNew e.bootConfig with providers := clients } tables
  Step g l g' := g' = g.handle regexNew registry l.1 l.2

end Runs

/-- The metrics are given out to nobody who does not present the key. -/
def MetricsProtected (vars : String → Option String) (k : String) (g : Gateway) : Prop :=
  ∀ authorization, authorization ≠ some ("Bearer " ++ k) →
    g.metricsHandler vars authorization = .error ⟨401, "unauthorized"⟩

/-- The configuration of the request, where it is accepted, holds the key. -/
def Carries (k : String) : ConfigRequest → Prop
  | .reload (.ok config) | .update config =>
    config.applyGuardrailDeprecations.validate = .ok () → config.masterKey = some k
  | .reload (.error _) | .rollback _ => True

/-- The key is live and in every version that can be rolled back to. -/
structure KeepsKey (k : String) (g : Gateway) : Prop where
  live : g.config.masterKey = some k
  recorded : ∀ entry ∈ g.configHistory.entries, entry.config.masterKey = some k

variable {vars : String → Option String} {regexNew : String → Option Regex}
  {registry : ProviderRegistry} {g : Gateway} {k : String} {tables : ModelTables}

/-! ### What the endpoint expects -/

theorem metricsHandler_eq_unauthorized {authorization : Option String} :
    g.metricsHandler vars authorization = .error ⟨401, "unauthorized"⟩ ↔
      ∃ expected ∈ g.metricsToken vars, authorization ≠ some ("Bearer " ++ expected) := by
  have hpresents (expected : String) :
      ((authorization.bind (Text.stripPrefix · "Bearer ")).any fun presented ↦
        constantTimeEq presented.toUTF8.data.toList expected.toUTF8.data.toList) = true ↔
          authorization = some ("Bearer " ++ expected) := by
    simp only [Option.any_eq_true, constantTimeEq_toUTF8_iff, Option.bind_eq_some_iff,
      Text.stripPrefix_eq_some]
    constructor
    · rintro ⟨presented, ⟨header, hheader, rfl⟩, rfl⟩
      exact hheader
    · intro h
      exact ⟨expected, ⟨_, h, rfl⟩, rfl⟩
  rw [metricsHandler]
  split
  · next hnone => simp [hnone]
  · next expected hsome =>
    rw [hsome]
    split
    · next hauthorized =>
      refine iff_of_false (fun h ↦ (by cases h)) ?_
      rintro ⟨expected', hexpected, hne⟩
      obtain rfl := Option.some.inj hexpected
      exact hne ((hpresents _).1 hauthorized)
    · next hrefused => exact iff_of_true rfl ⟨expected, rfl, mt (hpresents _).2 hrefused⟩

/-- Without `METRICS_TOKEN`, the metrics are behind a key exactly when it is the live one. -/
theorem metricsProtected_iff (hvar : vars "METRICS_TOKEN" = none) (hk : k ≠ "") :
    g.MetricsProtected vars k ↔ g.config.masterKey = some k := by
  have htoken : g.metricsToken vars = g.config.masterKey.filter (!·.isEmpty) := by
    rw [metricsToken, hvar, Option.none_or]
  simp only [MetricsProtected, metricsHandler_eq_unauthorized, htoken]
  constructor
  · intro h
    obtain ⟨expected, hexpected, -⟩ := h none (by simp)
    obtain ⟨hlive, -⟩ := Option.filter_eq_some_iff.1 hexpected
    -- another key that is live would itself be let in
    by_contra hne
    obtain ⟨expected', hexpected', hother⟩ := h (some ("Bearer " ++ expected)) fun heq ↦ by
      rw [Option.some_inj, String.append_right_inj] at heq
      exact hne (heq ▸ hlive)
    rw [Option.some.inj (hexpected.symm.trans hexpected')] at hother
    exact hother rfl
  · intro hlive authorization hother
    exact ⟨k, Option.filter_eq_some_iff.2 ⟨hlive, by simpa using hk⟩, hother⟩

/-! ### What the handlers do to the key -/

variable (registry g tables) in
/-- The rebuild behind a change leaves everything as it is, or applies rows. -/
theorem reassertDbTargets_cases :
    g.reassertDbTargets registry tables = g ∨
      ∃ rows, g.reassertDbTargets registry tables = g.applyRows rows := by
  cases tables with
  | none => exact .inl rfl
  | some tables =>
    rcases rebuildTargetsFromDb_cases g registry tables.1 tables.2 .keepPrevious with
      ⟨-, hkept⟩ | ⟨-, happlied⟩
    · exact .inl hkept
    · exact .inr ⟨_, happlied⟩

@[simp] theorem masterKey_reassertDbTargets :
    (g.reassertDbTargets registry tables).config.masterKey = g.config.masterKey := by
  rcases reassertDbTargets_cases registry g tables with hcall | ⟨rows, hcall⟩
  · rw [hcall]
  · rw [hcall]
    rfl

@[simp] theorem configHistory_reassertDbTargets :
    (g.reassertDbTargets registry tables).configHistory = g.configHistory := by
  rcases reassertDbTargets_cases registry g tables with hcall | ⟨rows, hcall⟩
  · rw [hcall]
  · rw [hcall]
    rfl

/-- A configuration that is accepted brings its own key; one that is not changes nothing. -/
theorem masterKey_applyAndRecord {config : Config} {rolledBackFrom : Option ℕ} :
    (g.applyAndRecord regexNew config rolledBackFrom).1.config.masterKey =
      if config.applyGuardrailDeprecations.validate = .ok () then config.masterKey
      else g.config.masterKey := by
  rcases applyAndRecord_cases regexNew g config rolledBackFrom with
    ⟨hvalid, hcall⟩ | ⟨e, hvalid, hcall⟩
  · rw [hcall, if_pos hvalid]
    rfl
  · rw [hcall, hvalid, if_neg (fun h ↦ (by cases h))]

/-- What is recorded was accepted. -/
theorem mem_entries_applyAndRecord {config : Config} {rolledBackFrom : Option ℕ}
    {entry : ConfigHistoryEntry}
    (h : entry ∈ (g.applyAndRecord regexNew config rolledBackFrom).1.configHistory.entries) :
    entry ∈ g.configHistory.entries ∨
      config.applyGuardrailDeprecations.validate = .ok () ∧ entry.config = config := by
  rcases applyAndRecord_cases regexNew g config rolledBackFrom with
    ⟨hvalid, hcall⟩ | ⟨e, -, hcall⟩
  · rw [hcall] at h
    rcases List.mem_append.1 h with hold | hnew
    · exact .inl hold
    · rw [List.mem_singleton.1 hnew]
      exact .inr ⟨hvalid, rfl⟩
  · rw [hcall] at h
    exact .inl h

theorem masterKey_answerApplied {r : Gateway × Except GatewayError Unit} :
    (answerApplied registry tables r).1.config.masterKey = r.1.config.masterKey := by
  obtain ⟨g', result⟩ := r
  cases result with
  | ok => exact masterKey_reassertDbTargets
  | error e => rfl

theorem configHistory_answerApplied {r : Gateway × Except GatewayError Unit} :
    (answerApplied registry tables r).1.configHistory = r.1.configHistory := by
  obtain ⟨g', result⟩ := r
  cases result with
  | ok => exact configHistory_reassertDbTargets
  | error e => rfl

/-- A configuration that carries the key, where it is accepted, keeps it. -/
theorem KeepsKey.answerApplied (h : g.KeepsKey k) {config : Config} {rolledBackFrom : Option ℕ}
    (hcarries : config.applyGuardrailDeprecations.validate = .ok () → config.masterKey = some k) :
    (Gateway.answerApplied registry tables
      (g.applyAndRecord regexNew config rolledBackFrom)).1.KeepsKey k := by
  constructor
  · rw [masterKey_answerApplied, masterKey_applyAndRecord]
    split
    · next hvalid => exact hcarries hvalid
    · exact h.live
  · intro entry hentry
    rw [configHistory_answerApplied] at hentry
    rcases mem_entries_applyAndRecord hentry with hold | ⟨hvalid, hconfig⟩
    · exact h.recorded entry hold
    · rw [hconfig]
      exact hcarries hvalid

theorem KeepsKey.handle (h : g.KeepsKey k) {request : ConfigRequest}
    (hcarries : Carries k request) :
    (g.handle regexNew registry request tables).KeepsKey k := by
  cases request with
  | reload loaded =>
    cases loaded with
    | ok config => exact h.answerApplied hcarries
    | error e => exact h
  | update body => exact h.answerApplied hcarries
  | rollback version =>
    rw [Gateway.handle, configRollback]
    rcases rollbackConfig_cases regexNew g version with ⟨entry, hentry, hcall⟩ | ⟨e, hcall⟩
    · rw [hcall]
      exact h.answerApplied fun _ ↦ h.recorded entry hentry
    · rw [hcall]
      exact h

/-- A configuration that is accepted without the key replaces it. -/
theorem carries_of_live {request : ConfigRequest}
    (h : (g.handle regexNew registry request tables).config.masterKey = some k) :
    Carries k request := by
  have happly {config : Config}
      (hlive : (answerApplied registry tables (g.reloadConfig regexNew config)).1.config.masterKey =
        some k)
      (hvalid : config.applyGuardrailDeprecations.validate = .ok ()) :
      config.masterKey = some k := by
    rwa [masterKey_answerApplied, reloadConfig, masterKey_applyAndRecord, if_pos hvalid] at hlive
  cases request with
  | reload loaded =>
    cases loaded with
    | ok config => exact happly h
    | error e => trivial
  | update body => exact happly h
  | rollback version => trivial

/-- **While every configuration that is accepted carries the key, the metrics are behind it.** And a
further call leaves them behind it only if it carries the key as well. -/
theorem metrics_protected {κ : Type*} {e : BootEnv κ} (hvar : e.vars "METRICS_TOKEN" = none)
    (hk : k ≠ "") (hkey : e.bootConfig.masterKey = some k)
    (hg : ((handlerRuns e regexNew registry).guard fun _ l ↦ Carries k l.1).Reachable g) :
    g.MetricsProtected e.vars k ∧ ∀ request tables,
      (g.handle regexNew registry request tables).MetricsProtected e.vars k ↔
        Carries k request := by
  have hinv : ((handlerRuns e regexNew registry).guard fun _ l ↦ Carries k l.1).Invariant
      (KeepsKey k) := by
    constructor
    · rintro g ⟨clients, tables, rfl⟩
      constructor
      · rw [masterKey_reassertDbTargets]
        exact hkey
      · intro entry hentry
        rw [configHistory_reassertDbTargets] at hentry
        rw [List.mem_singleton.1 hentry]
        exact hkey
    · rintro g ⟨request, tables⟩ g' hkeeps ⟨rfl, hcarries⟩
      exact hkeeps.handle hcarries
  have hkeeps := hinv.of_reachable hg
  refine ⟨(metricsProtected_iff hvar hk).2 hkeeps.live, fun request tables ↦ ?_⟩
  rw [metricsProtected_iff hvar hk]
  exact ⟨carries_of_live, fun hcarries ↦ (hkeeps.handle hcarries).live⟩

/-- A gateway started with a master key in its environment. -/
def withMasterKey : BootEnv Unit where
  vars := fun name ↦ if name = "MASTER_KEY" then some "master" else none
  config := .default
  discover := fun _ _ _ ↦ none
  secret := ()
  store := .memory .empty .empty

/-- The gateway after such a boot, without clients and tables. -/
def masterKeyBoot : Gateway :=
  { Gateway.new (fun _ ↦ none) withMasterKey.bootConfig with providers := .empty }

theorem metrics_protected_rollback : ∃ g,
    ((handlerRuns withMasterKey (fun _ ↦ none) buildProviderRegistry).guard
      fun _ l ↦ Carries "master" l.1).Reachable g ∧
        g.MetricsProtected withMasterKey.vars "master" := by
  have hboot : ((handlerRuns withMasterKey (fun _ ↦ none) buildProviderRegistry).guard
      fun _ l ↦ Carries "master" l.1).Reachable masterKeyBoot :=
    .init ⟨.empty, none, rfl⟩
  have hrolledBack := hboot.step (l := (ConfigRequest.rollback 1, none))
    ⟨rfl, True.intro⟩
  exact ⟨_, hrolledBack, (metrics_protected rfl (by decide) rfl hrolledBack).1⟩

/-- Saving the configuration just fetched takes the key away. -/
theorem saved_config_opens_metrics : ∃ g,
    (handlerRuns withMasterKey (fun _ ↦ none) buildProviderRegistry).Reachable g ∧
      ¬ g.MetricsProtected withMasterKey.vars "master" := by
  have hboot : (handlerRuns withMasterKey (fun _ ↦ none) buildProviderRegistry).Reachable
      masterKeyBoot := .init ⟨.empty, none, rfl⟩
  have hsaved := hboot.step (l := (.update masterKeyBoot.getConfigBody, none)) rfl
  refine ⟨_, hsaved, fun h ↦ ?_⟩
  have hanswer := h none (by decide)
  cases hanswer

end Gateway

end Himadri
