import Himadri.Gateway.Reapply
import Himadri.Server.ConfigJson
import Himadri.Server.Metrics

/-!
# The configuration over HTTP

A configuration comes into the gateway as JSON, from the file that is loaded or from the body of an
update, and goes out as JSON. Between the two it is replaced, rolled back, normalised, and its
targets are overwritten by rebuilds. Whatever of this has happened, what the admin API gives out it
takes back, and the gateway then is configured as before but for the master key
(`ConfigRoutes.put_back`).
-/

namespace Himadri

/-! ### Loading -/

/-- `Path::file_name`. -/
def fileName (path : String) : Option (List Char) :=
  match ((path.toList.splitOn '/').filter fun c ↦ c ≠ [] && c ≠ ['.']).getLast? with
  | some ['.', '.'] => none
  | name => name

/-- `Path::extension`. -/
def fileExtension (path : String) : Option String :=
  (fileName path).bind fun name ↦
    let after := name.reverse.takeWhile (· ≠ '.')
    let before := name.reverse.dropWhile (· ≠ '.')
    if before.tail = [] then none else some (String.ofList after.reverse)

namespace Config

variable (text : JsonText) (readToString : String → Except String String)

/-- `Config::load_from_file`. -/
def loadFromFile (path : String) : Except ConfigError Config :=
  match readToString path with
  | .error e => .error (.io e)
  | .ok content =>
    let ext := (fileExtension path).getD "json"
    if ext = "json" then
      match text.fromStr content with
      | .error e => .error (.parse e)
      | .ok v =>
        match decodeConfig v with
        | some config => .ok config.applyGuardrailDeprecations
        | none => .error (.parse (text.why v))
    else .error (.invalidValue "config_file" ("unsupported extension: " ++ ext))

/-- `Config::load_from_env`. -/
def loadFromEnv (vars : String → Option String) : Except ConfigError Config :=
  match vars "GATEWAY_CONFIG" with
  | some path => loadFromFile text readToString path
  | none => .ok .default

end Config

/-! ### The routes -/

namespace Gateway

variable (regexNew : String → Option Regex) (registry : ProviderRegistry) (text : JsonText)
  (g : Gateway)

/-- `PUT /admin/config`, with the rejection of a body that is no configuration. -/
def putConfig (body : Json) (tables : ModelTables) : Gateway × Except ApiError Unit :=
  match decodeConfig body with
  | some config => g.updateConfig regexNew registry config tables
  | none => (g, .error ⟨422, text.why body⟩)

end Gateway

/-- What changes the configuration. -/
inductive ConfigChange
  /-- `POST /admin/config/reload`, with the files as they are then. -/
  | reload (readToString : String → Except String String)
  | put (body : Json)
  | rollback (version : ℕ)
  /-- A change of the tables, and the rebuild after it. -/
  | rebuild (models : List Model) (endpoints : List ModelEndpoint) (onEmpty : OnEmpty)

namespace ConfigRoutes

open Gateway

section Runs

variable {κ : Type*} (e : BootEnv κ) (regexNew : String → Option Regex)
  (registry : ProviderRegistry) (text : JsonText)

/-- One call, with what the tables answer to it. -/
def step (g : Gateway) (tables : Gateway.ModelTables) : ConfigChange → Gateway
  | .reload readToString =>
    (g.reloadConfigHandler regexNew registry (Config.loadFromEnv text readToString e.vars) tables).1
  | .put body => (g.putConfig regexNew registry text body tables).1
  | .rollback version => (g.configRollback regexNew registry version tables).1
  | .rebuild models endpoints onEmpty =>
    (g.rebuildTargetsFromDb registry models endpoints onEmpty).1

/-- The runs of a gateway booted with the configuration it loads. -/
def runs : TransitionSystem Gateway (ConfigChange × Gateway.ModelTables) where
  Init g := ∃ readToString clients tables,
    Config.loadFromEnv text readToString e.vars = .ok e.config ∧
      g = reassertDbTargets registry
        { Gateway.new regexNew e.bootConfig with providers := clients } tables
  Step g op g' := g' = step e regexNew registry text g op.2 op.1

end Runs

/-! ### What is live fits -/

/-- What a run keeps: the gateway is settled, and every configuration it has fits. -/
structure Formed (regexNew : String → Option Regex) (g : Gateway) : Prop where
  settled : g.Settled regexNew
  config : g.config.Fits
  recorded : ∀ entry ∈ g.configHistory.entries, entry.config.Fits

end ConfigRoutes

/-! The shim leaves the numbers and the names alone. -/

theorem OrgGuardrailConfig.Fits.shim {c : OrgGuardrailConfig} (h : c.Fits) : c.shim.Fits := by
  rw [OrgGuardrailConfig.shim]
  split
  · exact h
  · exact h

theorem TeamConfig.Fits.shim {c : TeamConfig} (h : c.Fits) : (Config.shimTeam c).Fits :=
  ⟨h.rateLimit, h.tokenBudget, h.guardrails.shim⟩

theorem OrgConfig.Fits.shim {c : OrgConfig} (h : c.Fits) : (Config.shimOrg c).Fits := by
  obtain ⟨entries, hentries⟩ := h.finite
  refine ⟨h.rateLimit, h.tokenBudget, h.guardrails.shim, ⟨_, hentries.mapValues _⟩,
    fun name t hget ↦ ?_⟩
  obtain ⟨t', hget', rfl⟩ := Option.map_eq_some_iff.1 hget
  exact (h.teams name t' hget').shim

theorem Config.Fits.shim {c : Config} (h : c.Fits) : c.applyGuardrailDeprecations.Fits := by
  obtain ⟨entries, hentries⟩ := h.orgsFinite
  refine ⟨h.strategy, h.rateLimit, ⟨_, hentries.mapValues _⟩, fun name o hget ↦ ?_, h.rolesFinite⟩
  obtain ⟨o', hget', rfl⟩ := Option.map_eq_some_iff.1 hget
  exact (h.orgs name o' hget').shim

theorem Config.fits_default : Config.default.Fits :=
  ⟨by decide, ⟨by decide, by decide⟩, ⟨[], KeyMap.iteratedAs_empty⟩, fun _ _ h ↦ (by cases h),
    ⟨[], KeyMap.iteratedAs_empty⟩⟩

/-- What is loaded fits, and is normalised. -/
theorem Config.fits_of_load {text : JsonText} {readToString : String → Except String String}
    {vars : String → Option String} {c : Config}
    (h : Config.loadFromEnv text readToString vars = .ok c) :
    c.Fits ∧ c.applyGuardrailDeprecations = c := by
  rw [Config.loadFromEnv] at h
  split at h
  · rw [Config.loadFromFile] at h
    split at h
    · cases h
    · dsimp only at h
      split at h
      · split at h
        · cases h
        · split at h
          · next config hdecode =>
            obtain rfl := Except.ok.inj h
            exact ⟨(Config.fits_of_decode hdecode).shim, config.applyGuardrailDeprecations_idem⟩
          · cases h
      · cases h
  · obtain rfl := Except.ok.inj h
    exact ⟨Config.fits_default, Config.applyGuardrailDeprecations_default⟩

namespace ConfigRoutes

open Gateway

variable {regexNew : String → Option Regex} {registry : ProviderRegistry} {g : Gateway}
  {text : JsonText}

theorem Formed.applyAndRecord (h : Formed regexNew g) {config : Config} (hfits : config.Fits)
    (rolledBackFrom : Option ℕ) :
    Formed regexNew (g.applyAndRecord regexNew config rolledBackFrom).1 := by
  have hsettled : (g.applyAndRecord regexNew config rolledBackFrom).1.Settled regexNew :=
    h.settled.applyAndRecord
  refine ⟨hsettled, ?_, fun entry hentry ↦ ?_⟩
  · rcases applyAndRecord_cases regexNew g config rolledBackFrom with ⟨-, hcall⟩ | ⟨e, -, hcall⟩
    · rw [hcall]
      exact hfits.shim
    · rw [hcall]
      exact h.config
  · rcases mem_entries_applyAndRecord hentry with hold | ⟨-, hconfig⟩
    · exact h.recorded entry hold
    · rwa [hconfig]

theorem Formed.rebuild (h : Formed regexNew g) (models : List Model)
    (endpoints : List ModelEndpoint) (onEmpty : OnEmpty) :
    Formed regexNew (g.rebuildTargetsFromDb registry models endpoints onEmpty).1 := by
  have hsettled :
      (g.rebuildTargetsFromDb registry models endpoints onEmpty).1.Settled regexNew :=
    h.settled.edit (.rebuild models endpoints onEmpty)
  refine ⟨hsettled, ?_, ?_⟩
  · rcases rebuildTargetsFromDb_cases g registry models endpoints onEmpty with
      ⟨-, hcall⟩ | ⟨-, hcall⟩
    · rw [hcall]
      exact h.config
    · rw [hcall]
      -- the targets are the only part of the configuration that a rebuild writes
      exact ⟨h.config.strategy, h.config.rateLimit, h.config.orgsFinite, h.config.orgs,
        h.config.rolesFinite⟩
  · rcases rebuildTargetsFromDb_cases g registry models endpoints onEmpty with
      ⟨-, hcall⟩ | ⟨-, hcall⟩
    · rw [hcall]
      exact h.recorded
    · rw [hcall]
      exact h.recorded

theorem Formed.reassert (h : Formed regexNew g) (tables : Gateway.ModelTables) :
    Formed regexNew (g.reassertDbTargets registry tables) := by
  rcases tables with - | ⟨models, endpoints⟩
  · exact h
  · exact h.rebuild models endpoints .keepPrevious

/-- A handler that applies what fits. -/
theorem Formed.answerApplied (h : Formed regexNew g) {config : Config} (hfits : config.Fits)
    (rolledBackFrom : Option ℕ) (tables : Gateway.ModelTables) :
    Formed regexNew (Gateway.answerApplied registry tables
      (g.applyAndRecord regexNew config rolledBackFrom)).1 := by
  have happlied := h.applyAndRecord hfits rolledBackFrom
  rcases hcall : g.applyAndRecord regexNew config rolledBackFrom with ⟨g', ⟨⟩ | e⟩
  · rw [hcall] at happlied
    exact happlied
  · rw [hcall] at happlied
    exact happlied.reassert tables

variable {κ : Type*} {e : BootEnv κ}

/-- Every call keeps it. -/
theorem Formed.step (h : Formed regexNew g) (op : ConfigChange) (tables : Gateway.ModelTables) :
    Formed regexNew (step e regexNew registry text g tables op) := by
  rcases op with readToString | body | version | ⟨models, endpoints, onEmpty⟩
  · rw [ConfigRoutes.step, reloadConfigHandler.eq_def]
    split
    · next config hload => exact h.answerApplied (Config.fits_of_load hload).1 none tables
    · exact h
  · rw [ConfigRoutes.step, putConfig]
    split
    · next config hdecode => exact h.answerApplied (Config.fits_of_decode hdecode) none tables
    · exact h
  · rw [ConfigRoutes.step, configRollback]
    rcases rollbackConfig_cases regexNew g version with ⟨entry, hentry, hcall⟩ | ⟨e, hcall⟩
    · rw [hcall]
      exact h.answerApplied (h.recorded entry hentry) _ tables
    · rw [hcall]
      exact h
  · exact h.rebuild models endpoints onEmpty

theorem formed_invariant (e : BootEnv κ) (regexNew : String → Option Regex)
    (registry : ProviderRegistry) (text : JsonText) :
    (runs e regexNew registry text).Invariant (Formed regexNew) where
  init g hg := by
    obtain ⟨readToString, clients, tables, hload, rfl⟩ := hg
    obtain ⟨hfits, hnormal⟩ := Config.fits_of_load hload
    have hboot : e.bootConfig.Fits ∧
        e.bootConfig.applyGuardrailDeprecations = e.bootConfig := by
      rw [BootEnv.bootConfig]
      split
      · next key _ =>
        exact ⟨⟨hfits.strategy, hfits.rateLimit, hfits.orgsFinite, hfits.orgs, hfits.rolesFinite⟩,
          congrArg (fun config : Config ↦ { config with masterKey := some key }) hnormal⟩
      · exact ⟨hfits, hnormal⟩
    refine Formed.reassert ⟨⟨hboot.2, rfl, rfl⟩, hboot.1, fun entry hentry ↦ ?_⟩ tables
    rw [List.mem_singleton.1 hentry]
    exact hboot.1
  step g op g' h hstep := by
    obtain rfl := hstep
    exact h.step op.1 op.2

/-! ### Putting back what was given out -/

section PutBack

variable (registry) in
/-- What putting a configuration back comes to: where there is something to route to it is accepted,
and the gateway is configured as the rebuild behind it would have left it anyway, but for the master
key; else it is refused, and nothing changes. -/
structure PutBack (tables : Gateway.ModelTables) (g : Gateway)
    (r : Gateway × Except ApiError Unit) : Prop where
  refused : ¬ Config.Routes g.targets → r.1 = g ∧ ∃ e : ApiError, r.2 = .error e ∧ e.status = 400
  accepted : Config.Routes g.targets → r.2 = .ok ()
  config : Config.Routes g.targets →
    r.1.config = { (g.reassertDbTargets registry tables).config with masterKey := none }
  targets : Config.Routes g.targets → r.1.targets = (g.reassertDbTargets registry tables).targets
  strategy : Config.Routes g.targets →
    r.1.strategy = (g.reassertDbTargets registry tables).strategy

variable (registry) (g) in
/-- A rebuild does not read the master key. -/
theorem reassert_masterKey (g' : Gateway)
    (hconfig : g'.config = { g.config with masterKey := none }) (htargets : g'.targets = g.targets)
    (hstrategy : g'.strategy = g.strategy) (tables : Gateway.ModelTables) :
    (g'.reassertDbTargets registry tables).config =
        { (g.reassertDbTargets registry tables).config with masterKey := none } ∧
      (g'.reassertDbTargets registry tables).targets =
        (g.reassertDbTargets registry tables).targets ∧
      (g'.reassertDbTargets registry tables).strategy =
        (g.reassertDbTargets registry tables).strategy := by
  rcases tables with - | ⟨models, endpoints⟩
  · exact ⟨hconfig, htargets, hstrategy⟩
  · show (g'.rebuildTargetsFromDb registry models endpoints .keepPrevious).1.config = _ ∧
      (g'.rebuildTargetsFromDb registry models endpoints .keepPrevious).1.targets = _ ∧
        (g'.rebuildTargetsFromDb registry models endpoints .keepPrevious).1.strategy = _
    rw [reassertDbTargets]
    by_cases hkeeps : keepsPrevious (buildRows registry models endpoints) .keepPrevious
    · rw [rebuildTargetsFromDb_kept hkeeps, rebuildTargetsFromDb_kept hkeeps]
      exact ⟨hconfig, htargets, hstrategy⟩
    · rw [Bool.not_eq_true] at hkeeps
      rw [rebuildTargetsFromDb_applied hkeeps, rebuildTargetsFromDb_applied hkeeps]
      refine ⟨?_, rfl, hstrategy⟩
      exact congrArg (fun config : Config ↦
        { config with targets := newTargets (buildRows registry models endpoints) }) hconfig

theorem Formed.putBack (h : Formed regexNew g) {v : Json} (hv : g.config.Writes v)
    (tables : Gateway.ModelTables) :
    PutBack registry tables g (g.putConfig regexNew registry text v tables) := by
  have hnormal : Config.applyGuardrailDeprecations { g.config with masterKey := none } =
      { g.config with masterKey := none } :=
    congrArg (fun config : Config ↦ { config with masterKey := none }) h.settled.normal
  rw [putConfig, h.config.decode_written hv]
  dsimp only
  rw [updateConfig, reloadConfig]
  rcases applyAndRecord_cases regexNew g { g.config with masterKey := none } none with
    ⟨hvalid, hcall⟩ | ⟨e, hinvalid, hcall⟩
  · rw [hnormal] at hvalid hcall
    have hroutes : Config.Routes g.targets := by
      rw [h.settled.targets]
      exact Config.validate_eq_ok.1 hvalid
    rw [hcall]
    obtain ⟨hconfig, htargets, hstrategy⟩ := reassert_masterKey registry g
      (((g.swapConfig regexNew { g.config with masterKey := none }).retune
        { g.config with masterKey := none }).recordConfig { g.config with masterKey := none } none)
      rfl h.settled.targets.symm h.settled.strategy.symm tables
    exact ⟨fun hnone ↦ absurd hroutes hnone, fun _ ↦ rfl, fun _ ↦ hconfig, fun _ ↦ htargets,
      fun _ ↦ hstrategy⟩
  · rw [hnormal] at hinvalid
    have hnone : ¬ Config.Routes g.targets := by
      rw [h.settled.targets, ← Config.validate_eq_ok]
      intro hok
      have hok' : Config.validate { g.config with masterKey := none } = .ok () := hok
      rw [hinvalid] at hok'
      cases hok'
    rw [hcall]
    exact ⟨fun _ ↦ ⟨rfl, _, rfl, rfl⟩, fun hroutes ↦ absurd hroutes hnone,
      fun hroutes ↦ absurd hroutes hnone, fun hroutes ↦ absurd hroutes hnone,
      fun hroutes ↦ absurd hroutes hnone⟩

end PutBack

/-- Every text is read as the same file. -/
def oneFile : JsonText := ⟨fun _ ↦ .ok oneTeamFile, fun _ ↦ ""⟩

end ConfigRoutes

end Himadri
