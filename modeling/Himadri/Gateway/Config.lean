import Himadri.Gateway.State

/-!
# Applying and recording configurations

`apply_config`, `reload_config` and `rollback_config`, each cut where another task can get in: a
configuration is prepared without any lock, swapped in under the three write locks, the limiter and
the breakers are retuned after they are released, and the history is written under its own lock.
`applyConfig`, `reloadConfig` and `rollbackConfig` are the uninterrupted calls.
-/

namespace Himadri

variable (regexNew : String → Option Regex)

namespace Config

/-- The first lines of `apply_config`: normalise the configuration and check it. -/
def prepare (config : Config) : Except GatewayError Config :=
  match config.applyGuardrailDeprecations.validate with
  | .ok () => .ok config.applyGuardrailDeprecations
  | .error e => .error (.config e)

theorem prepare_eq_ok {config prepared : Config} (h : config.prepare = .ok prepared) :
    prepared = config.applyGuardrailDeprecations := by
  unfold prepare at h
  split at h
  · exact (Except.ok.inj h).symm
  · cases h

end Config

namespace ConfigHistory

variable (history : ConfigHistory)

/-- The lookup of `rollback_config`: the first entry with the version. -/
def entry? (version : ℕ) : Option ConfigHistoryEntry :=
  history.entries.find? (·.version == version)

/-- The configuration `rollback_config` restores. -/
def lookup (version : ℕ) : Except GatewayError Config :=
  match history.entry? version with
  | some e => .ok e.config
  | none => .error (.badRequest ("Config version " ++ toString version ++ " not found"))

end ConfigHistory

namespace Gateway

variable (g : Gateway)

/-- The swap of `apply_config` under the three write locks. -/
def swapConfig (config : Config) : Gateway :=
  { g with
    strategy := .fromStrategyConfig regexNew config.strategy
    config := config
    targets := config.targets }

/-- The rest of `apply_config`: retune the limiter, clear it, and clear the breakers. -/
def retune (config : Config) : Gateway :=
  { g with
    rateLimiter := (g.rateLimiter.setDefaults config.rateLimit.requestsPerSecond
      config.rateLimit.burstSize).clear
    circuitBreakers := .empty }

/-- Append to the history. -/
def recordConfig (config : Config) (rolledBackFrom : Option ℕ) : Gateway :=
  { g with configHistory := g.configHistory.record config rolledBackFrom }

/-- `Gateway::apply_config`. -/
def applyConfig (config : Config) : Gateway × Except GatewayError Unit :=
  match config.prepare with
  | .ok prepared => ((g.swapConfig regexNew prepared).retune prepared, .ok ())
  | .error e => (g, .error e)

/-- Apply a configuration and record it as it was given. -/
def applyAndRecord (config : Config) (rolledBackFrom : Option ℕ) :
    Gateway × Except GatewayError Unit :=
  match g.applyConfig regexNew config with
  | (g', .ok ()) => (g'.recordConfig config rolledBackFrom, .ok ())
  | (g', .error e) => (g', .error e)

/-- `Gateway::reload_config`. -/
def reloadConfig (config : Config) : Gateway × Except GatewayError Unit :=
  g.applyAndRecord regexNew config none

/-- `Gateway::rollback_config`. -/
def rollbackConfig (version : ℕ) : Gateway × Except GatewayError Unit :=
  match g.configHistory.lookup version with
  | .ok config => g.applyAndRecord regexNew config (some version)
  | .error e => (g, .error e)

/-! ### What the calls do -/

variable {regexNew} {g}

theorem applyAndRecord_of_prepared {config prepared : Config} {rolledBackFrom : Option ℕ}
    (h : config.prepare = .ok prepared) :
    g.applyAndRecord regexNew config rolledBackFrom =
      (((g.swapConfig regexNew prepared).retune prepared).recordConfig config rolledBackFrom,
        .ok ()) := by
  simp only [applyAndRecord, applyConfig, h]

theorem applyAndRecord_of_error {config : Config} {rolledBackFrom : Option ℕ} {e : GatewayError}
    (h : config.prepare = .error e) :
    g.applyAndRecord regexNew config rolledBackFrom = (g, .error e) := by
  simp only [applyAndRecord, applyConfig, h]

variable (regexNew) (g) in
/-- All that a call can do: a configuration whose normal form validates becomes live in that form
and is recorded as it was given, and any other changes nothing. -/
theorem applyAndRecord_cases (config : Config) (rolledBackFrom : Option ℕ) :
    (config.applyGuardrailDeprecations.validate = .ok () ∧
      g.applyAndRecord regexNew config rolledBackFrom =
        (((g.swapConfig regexNew config.applyGuardrailDeprecations).retune
          config.applyGuardrailDeprecations).recordConfig config rolledBackFrom, .ok ())) ∨
      ∃ e, config.applyGuardrailDeprecations.validate = .error e ∧
        g.applyAndRecord regexNew config rolledBackFrom = (g, .error (.config e)) := by
  cases hvalid : config.applyGuardrailDeprecations.validate with
  | ok =>
    have hprepare : config.prepare = .ok config.applyGuardrailDeprecations := by
      rw [Config.prepare, hvalid]
    exact .inl ⟨rfl, applyAndRecord_of_prepared hprepare⟩
  | error e =>
    have hprepare : config.prepare = .error (.config e) := by rw [Config.prepare, hvalid]
    exact .inr ⟨e, rfl, applyAndRecord_of_error hprepare⟩

variable (regexNew) (g) in
/-- A rollback applies a recorded configuration, or changes nothing. -/
theorem rollbackConfig_cases (version : ℕ) :
    (∃ entry ∈ g.configHistory.entries,
      g.rollbackConfig regexNew version =
        g.applyAndRecord regexNew entry.config (some version)) ∨
      ∃ e, g.rollbackConfig regexNew version = (g, .error e) := by
  rw [rollbackConfig, ConfigHistory.lookup]
  cases hentry : g.configHistory.entry? version with
  | some entry => exact .inl ⟨entry, List.mem_of_find?_eq_some hentry, rfl⟩
  | none => exact .inr ⟨_, rfl⟩

/-- Configuration changes leave the registered clients alone. -/
@[simp] theorem providers_applyAndRecord {config : Config} {rolledBackFrom : Option ℕ} :
    (g.applyAndRecord regexNew config rolledBackFrom).1.providers = g.providers := by
  rcases applyAndRecord_cases regexNew g config rolledBackFrom with ⟨-, hcall⟩ | ⟨e, -, hcall⟩
  · rw [hcall]
    rfl
  · rw [hcall]

/-- A successful call leaves the normalised configuration live. -/
theorem config_applyAndRecord {config : Config} {rolledBackFrom : Option ℕ}
    (h : (g.applyAndRecord regexNew config rolledBackFrom).2 = .ok ()) :
    (g.applyAndRecord regexNew config rolledBackFrom).1.config =
      config.applyGuardrailDeprecations := by
  rcases applyAndRecord_cases regexNew g config rolledBackFrom with ⟨-, hcall⟩ | ⟨e, -, hcall⟩
  · rw [hcall]
    rfl
  · rw [hcall] at h
    cases h

/-- A call that fails changes nothing. -/
theorem applyAndRecord_error {config : Config} {rolledBackFrom : Option ℕ} {e : GatewayError}
    (h : (g.applyAndRecord regexNew config rolledBackFrom).2 = .error e) :
    (g.applyAndRecord regexNew config rolledBackFrom).1 = g := by
  rcases applyAndRecord_cases regexNew g config rolledBackFrom with ⟨-, hcall⟩ | ⟨e, -, hcall⟩
  · rw [hcall] at h
    cases h
  · rw [hcall]

theorem rollbackConfig_error {version : ℕ} {e : GatewayError}
    (h : (g.rollbackConfig regexNew version).2 = .error e) :
    (g.rollbackConfig regexNew version).1 = g := by
  rcases rollbackConfig_cases regexNew g version with ⟨entry, -, hcall⟩ | ⟨e, hcall⟩
  · rw [hcall] at h ⊢
    exact applyAndRecord_error h
  · rw [hcall]

@[simp] theorem providers_rollbackConfig {version : ℕ} :
    (g.rollbackConfig regexNew version).1.providers = g.providers := by
  rcases rollbackConfig_cases regexNew g version with ⟨entry, -, hcall⟩ | ⟨e, hcall⟩
  · rw [hcall]
    exact providers_applyAndRecord
  · rw [hcall]

end Gateway

end Himadri
