import Himadri.Gateway.Config
import Himadri.Gateway.Rebuild
import Himadri.Provider.Registry
import Himadri.Transition.System

/-!
# Applying the live configuration again

A rebuild writes its targets into the live configuration without the check that `apply_config`
makes. After any sequence of reloads, rollbacks and rebuilds, applying the live configuration again
changes nothing; it is refused exactly where a rebuild has left nothing to route to, or a target
that names no provider.
-/

namespace Himadri

namespace Config

/-- There are targets, and each of them names a provider. -/
def Routes (targets : List Target) : Prop := targets ≠ [] ∧ ∀ t ∈ targets, t.provider ≠ ""

/-- That is all `validate` asks for. -/
theorem validate_eq_ok {config : Config} : config.validate = .ok () ↔ Routes config.targets := by
  have hnamed : config.targets.any (·.provider.isEmpty) = false ↔
      ∀ t ∈ config.targets, t.provider ≠ "" := by
    simp [List.any_eq_false]
  unfold validate Routes
  split
  · next hempty => simp [List.isEmpty_iff.1 hempty]
  · next hsome =>
    rw [List.isEmpty_iff] at hsome
    split
    · next hblank =>
      rw [← hnamed, hblank]
      simp
    · next hall =>
      rw [← hnamed, Bool.eq_false_iff]
      exact iff_of_true rfl ⟨hsome, hall⟩

end Config

/-- A call that changes what is routed. -/
inductive RoutingEdit
  | reload (config : Config)
  | rollback (version : ℕ)
  | rebuild (models : List Model) (endpoints : List ModelEndpoint) (onEmpty : OnEmpty)

namespace Gateway

section Edits

variable (regexNew : String → Option Regex) (registry : ProviderRegistry)

/-- The gateway after a call. -/
def edit (g : Gateway) : RoutingEdit → Gateway
  | .reload config => (g.reloadConfig regexNew config).1
  | .rollback version => (g.rollbackConfig regexNew version).1
  | .rebuild models endpoints onEmpty =>
    (g.rebuildTargetsFromDb registry models endpoints onEmpty).1

/-- The runs of a gateway booted with a configuration, whatever clients are registered. -/
def edits (config : Config) : TransitionSystem Gateway RoutingEdit where
  Init g := ∃ clients, g = { Gateway.new regexNew config with providers := clients }
  Step g l g' := g' = g.edit regexNew registry l

/-- A rebuild that applies has built something, of providers with names. -/
def KeepsRouting : RoutingEdit → Prop
  | .rebuild models endpoints onEmpty =>
    keepsPrevious (buildRows registry models endpoints) onEmpty = false →
      Config.Routes (newTargets (buildRows registry models endpoints))
  | .reload _ | .rollback _ => True

/-- Applying the live configuration again changes nothing, and is refused only where routing would
be empty or nameless. -/
structure Reapplies (g : Gateway) : Prop where
  ok_iff : (g.reloadConfig regexNew g.config).2 = .ok () ↔ Config.Routes g.targets
  config : (g.reloadConfig regexNew g.config).1.config = g.config
  targets : (g.reloadConfig regexNew g.config).1.targets = g.targets
  strategy : (g.reloadConfig regexNew g.config).1.strategy = g.strategy

/-- The targets and the strategy are those of the live configuration, which is normalised. -/
structure Settled (g : Gateway) : Prop where
  normal : g.config.applyGuardrailDeprecations = g.config
  targets : g.targets = g.config.targets
  strategy : g.strategy = .fromStrategyConfig regexNew g.config.strategy

end Edits

variable {regexNew : String → Option Regex} {registry : ProviderRegistry} {g : Gateway}

theorem Settled.reapplies (h : g.Settled regexNew) : g.Reapplies regexNew := by
  rcases applyAndRecord_cases regexNew g g.config none with
    ⟨hvalid, hcall⟩ | ⟨e, hvalid, hcall⟩
  · rw [h.normal] at hvalid hcall
    have hroutes : Config.Routes g.targets := by
      rw [h.targets]
      exact Config.validate_eq_ok.1 hvalid
    constructor <;> rw [reloadConfig, hcall]
    · exact iff_of_true rfl hroutes
    · rfl
    · exact h.targets.symm
    · exact h.strategy.symm
  · rw [h.normal] at hvalid
    have hroutes : ¬ Config.Routes g.targets := by
      rw [h.targets, ← Config.validate_eq_ok, hvalid]
      exact fun hok ↦ (by cases hok)
    constructor <;> rw [reloadConfig, hcall]
    exact iff_of_false (fun hok ↦ (by cases hok)) hroutes

/-- What is applied is settled; what is refused changes nothing. -/
theorem Settled.applyAndRecord (h : g.Settled regexNew) {config : Config}
    {rolledBackFrom : Option ℕ} :
    (g.applyAndRecord regexNew config rolledBackFrom).1.Settled regexNew := by
  rcases applyAndRecord_cases regexNew g config rolledBackFrom with ⟨-, hcall⟩ | ⟨e, -, hcall⟩
  · rw [hcall]
    exact ⟨Config.applyGuardrailDeprecations_idem config, rfl, rfl⟩
  · rw [hcall]
    exact h

theorem Settled.edit (h : g.Settled regexNew) (l : RoutingEdit) :
    (g.edit regexNew registry l).Settled regexNew := by
  cases l with
  | reload config => exact h.applyAndRecord
  | rollback version =>
    rw [Gateway.edit]
    rcases rollbackConfig_cases regexNew g version with ⟨entry, -, hcall⟩ | ⟨e, hcall⟩
    · rw [hcall]
      exact h.applyAndRecord
    · rw [hcall]
      exact h
  | rebuild models endpoints onEmpty =>
    rw [Gateway.edit]
    rcases rebuildTargetsFromDb_cases g registry models endpoints onEmpty with
      ⟨-, hcall⟩ | ⟨-, hcall⟩
    · rw [hcall]
      exact h
    · rw [hcall]
      -- normalising reads the guardrails, which a rebuild leaves alone
      have hnormal := congrArg (fun config : Config ↦
        { config with targets := newTargets (buildRows registry models endpoints) }) h.normal
      exact ⟨hnormal, rfl, h.strategy⟩

/-- What is applied has passed the check. -/
theorem routes_applyAndRecord (h : Config.Routes g.targets) {config : Config}
    {rolledBackFrom : Option ℕ} :
    Config.Routes (g.applyAndRecord regexNew config rolledBackFrom).1.targets := by
  rcases applyAndRecord_cases regexNew g config rolledBackFrom with
    ⟨hvalid, hcall⟩ | ⟨e, -, hcall⟩
  · rw [hcall]
    exact Config.validate_eq_ok.1 hvalid
  · rw [hcall]
    exact h

theorem routes_edit (h : Config.Routes g.targets) {l : RoutingEdit}
    (hkeeps : KeepsRouting registry l) :
    Config.Routes (g.edit regexNew registry l).targets := by
  cases l with
  | reload config => exact routes_applyAndRecord h
  | rollback version =>
    rw [edit]
    rcases rollbackConfig_cases regexNew g version with ⟨entry, -, hcall⟩ | ⟨e, hcall⟩
    · rw [hcall]
      exact routes_applyAndRecord h
    · rw [hcall]
      exact h
  | rebuild models endpoints onEmpty =>
    rw [edit]
    rcases rebuildTargetsFromDb_cases g registry models endpoints onEmpty with
      ⟨-, hcall⟩ | ⟨happlied, hcall⟩
    · rw [hcall]
      exact h
    · rw [hcall]
      exact hkeeps happlied

/-- **The live configuration can be applied again.** From a configuration that is valid and
normalised, every state that reloads, rollbacks and rebuilds reach applies its configuration again
without a change; and while the rebuilds that apply have something to route to, never in vain. -/
theorem live_config_reapplies {config : Config} (hvalid : config.validate = .ok ())
    (hnormal : config.applyGuardrailDeprecations = config) :
    (∀ g, (edits regexNew registry config).Reachable g → g.Reapplies regexNew) ∧
      ∀ g, ((edits regexNew registry config).guard fun _ l ↦ KeepsRouting registry l).Reachable g →
        (g.reloadConfig regexNew g.config).2 = .ok () := by
  have hsettled : (edits regexNew registry config).Invariant (Settled regexNew) := by
    constructor
    · rintro g ⟨clients, rfl⟩
      exact ⟨hnormal, rfl, rfl⟩
    · rintro g l g' h rfl
      exact h.edit l
  have hroutes : ((edits regexNew registry config).guard fun _ l ↦
      KeepsRouting registry l).Invariant fun g ↦ Config.Routes g.targets := by
    constructor
    · rintro g ⟨clients, rfl⟩
      exact Config.validate_eq_ok.1 hvalid
    · rintro g l g' h ⟨rfl, hkeeps⟩
      exact routes_edit h hkeeps
  refine ⟨fun g hg ↦ (hsettled.of_reachable hg).reapplies, fun g hg ↦ ?_⟩
  exact (hsettled.of_reachable hg.of_guard).reapplies.ok_iff.2 (hroutes.of_reachable hg)

/-- A gateway with the default configuration and without clients. -/
def defaultBoot : Gateway := { Gateway.new (fun _ ↦ none) .default with providers := .empty }

theorem live_config_reapplies_default : ∃ g,
    (edits (fun _ ↦ none) buildProviderRegistry .default).Reachable g ∧
      g.Reapplies (fun _ ↦ none) ∧ (g.reloadConfig (fun _ ↦ none) g.config).2 = .ok () := by
  have hboot : ((edits (fun _ ↦ none) buildProviderRegistry .default).guard
      fun _ l ↦ KeepsRouting buildProviderRegistry l).Reachable defaultBoot := .init ⟨.empty, rfl⟩
  have hkeeps : KeepsRouting buildProviderRegistry (.rebuild [] [] .keepPrevious) := by
    intro happlied
    cases happlied
  have hkept := hboot.step ⟨rfl, hkeeps⟩
  have hvalid := Config.validate_default
  have hnormal := Config.applyGuardrailDeprecations_default
  exact ⟨_, hkept.of_guard, (live_config_reapplies hvalid hnormal).1 _ hkept.of_guard,
    (live_config_reapplies hvalid hnormal).2 _ hkept⟩

/-- A configuration that still uses the deprecated flag. -/
def blockPiiConfig : Config :=
  { Config.default with
    orgs := KeyMap.empty.insert "acme"
      { name := none
        enabled := true
        allowedModels := none
        blockedModels := none
        rateLimit := none
        tokenBudget := none
        guardrails :=
          { OrgGuardrailConfig.default with
            enabled := true
            contentFilter := some ⟨true, true, false, []⟩ }
        teams := .empty } }

/-- After a rebuild has emptied routing the live configuration is refused, and one that was booted
with the deprecated flag is normalised when it is applied again. -/
theorem live_config_not_reapplied :
    (∃ g, (edits (fun _ ↦ none) buildProviderRegistry .default).Reachable g ∧
      (g.reloadConfig (fun _ ↦ none) g.config).2 ≠ .ok ()) ∧
    blockPiiConfig.validate = .ok () ∧
      ∃ g, (edits (fun _ ↦ none) buildProviderRegistry blockPiiConfig).Reachable g ∧
        (g.reloadConfig (fun _ ↦ none) g.config).1.config ≠ g.config := by
  refine ⟨?_, rfl, ?_⟩
  · have hboot : (edits (fun _ ↦ none) buildProviderRegistry .default).Reachable defaultBoot :=
      .init ⟨.empty, rfl⟩
    have hemptied := hboot.step (l := .rebuild [] [] .apply) rfl
    exact ⟨_, hemptied, fun hok ↦ (by cases hok)⟩
  · refine ⟨_, .init ⟨.empty, rfl⟩, fun heq ↦ ?_⟩
    have hpii := congrArg (fun config : Config ↦
      (config.orgs.get "acme").map (·.guardrails.pii.isSome)) heq
    cases hpii

end Gateway

end Himadri
