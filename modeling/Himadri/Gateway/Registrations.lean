import Himadri.Gateway.Config
import Himadri.Gateway.Rebuild
import Himadri.Provider.Registry
import Himadri.Transition.System

/-!
# Clients, keys and breakers in step with routing

Runs of whole calls: rebuilds from any tables, configuration changes, and breakers that traffic
creates under any key, over a gateway that started with clients registered from the environment.

After a rebuild that applies, the keys and the breakers are those of the active endpoints whatever
the gateway looked like before. The clients are pruned by the *previous target list*, which a
configuration change replaces without touching the clients, so they come out right exactly when that
list still names every client to be pruned and no client of the environment (`Tracked`).
-/

namespace Himadri

/-- One call, or one breaker that traffic creates. -/
inductive RoutingOp
  | rebuild (models : List Model) (endpoints : List ModelEndpoint) (onEmpty : OnEmpty)
  | reload (config : Config)
  | rollback (version : ℕ)
  | traffic (key : String) (breaker : CircuitBreaker .default)

namespace Gateway

variable (regexNew : String → Option Regex) (registry : ProviderRegistry)
  (envClients : KeyMap String ProviderClient)

/-- One call. Names of environment clients are not endpoint ids. -/
def routingStep? (g : Gateway) : RoutingOp → Option Gateway
  | .rebuild models endpoints onEmpty =>
    if endpoints.all fun e ↦ !envClients.containsKey e.id then
      some (g.rebuildTargetsFromDb registry models endpoints onEmpty).1
    else none
  | .reload config => some (g.reloadConfig regexNew config).1
  | .rollback version => some (g.rollbackConfig regexNew version).1
  | .traffic key breaker =>
    some { g with circuitBreakers := g.circuitBreakers.insert key breaker }

/-- The runs of a gateway booted with any configuration and the environment's clients. -/
def routingRuns : TransitionSystem Gateway RoutingOp :=
  .ofPartial (fun g ↦ ∃ config, g = { Gateway.new regexNew config with providers := envClients })
    (routingStep? regexNew registry envClients)

/-- The live target list names every client that a rebuild to `rows` has to prune, and none of the
environment's. -/
structure Tracked (g : Gateway) (rows : List BuiltRow) : Prop where
  named : ∀ id, g.providers.containsKey id → ¬ envClients.containsKey id → id ∉ activeIds rows →
    id ∈ targetIds g.targets
  spared : ∀ id ∈ targetIds g.targets, ¬ envClients.containsKey id

/-- A rebuild that applies finds its clients tracked. -/
def RebuildsTracked (g : Gateway) : RoutingOp → Prop
  | .rebuild models endpoints onEmpty =>
    keepsPrevious (buildRows registry models endpoints) onEmpty = false →
      Tracked envClients g (buildRows registry models endpoints)
  | _ => True

/-- The environment's clients are registered, unchanged. -/
def KeepsEnv (g : Gateway) : Prop :=
  ∀ id client, envClients.get id = some client → g.providers.get id = some client

/-- The clients registered are the environment's, unchanged, and those of the active endpoints. -/
structure ClientsExact (g : Gateway) (rows : List BuiltRow) : Prop where
  env : KeepsEnv envClients g
  exact : ∀ id, g.providers.containsKey id ↔ envClients.containsKey id ∨ id ∈ activeIds rows

variable {regexNew registry envClients} {g g' : Gateway} {rows : List BuiltRow}
  {models : List Model} {endpoints : List ModelEndpoint} {onEmpty : OnEmpty}

/-- **The clients come out of a rebuild exact if and only if they went in tracked.** -/
theorem clientsExact_iff_tracked (hkeep : KeepsEnv envClients g)
    (hrows : ∀ id ∈ activeIds rows, ¬ envClients.containsKey id) :
    ClientsExact envClients (g.applyRows rows) rows ↔ Tracked envClients g rows := by
  have henv : ∀ id, envClients.containsKey id → g.providers.containsKey id := by
    intro id hid
    obtain ⟨client, hclient⟩ := KeyMap.containsKey_iff.1 hid
    exact KeyMap.containsKey_iff.2 ⟨client, hkeep id client hclient⟩
  constructor
  · intro h
    refine ⟨fun id hreg hnot hactive ↦ ?_, fun id hlive hid ↦ ?_⟩
    · by_contra hlive
      have hafter := (h.exact id).1 (containsKey_providers_applyRows.2 (.inl ⟨hreg, hlive⟩))
      exact hafter.elim hnot hactive
    · -- a pruned client of the environment would have to be active
      have hafter := containsKey_providers_applyRows.1 ((h.exact id).2 (.inl hid))
      rcases hafter with ⟨-, hlive'⟩ | hactive
      · exact hlive' hlive
      · exact hrows id hactive hid
  · intro h
    refine ⟨fun id client hclient ↦ ?_, fun id ↦ ?_⟩
    -- neither pruned nor replaced: its id neither routed nor routes now
    · have hid := KeyMap.containsKey_iff.2 ⟨client, hclient⟩
      rw [get_providers_applyRows_of_notMem (fun hlive ↦ h.spared id hlive hid)
        (fun hactive ↦ hrows id hactive hid)]
      exact hkeep id client hclient
    · rw [containsKey_providers_applyRows]
      constructor
      · rintro (⟨hreg, hlive⟩ | hactive)
        · by_contra hno
          rw [not_or] at hno
          exact hlive (h.named id hreg hno.1 hno.2)
        · exact .inr hactive
      · rintro (hid | hactive)
        · exact .inl ⟨henv id hid, fun hlive ↦ h.spared id hlive hid⟩
        · exact .inr hactive

/-- An active id belongs to a row of the endpoint table. -/
theorem not_containsKey_of_mem_activeIds
    (hids : endpoints.all fun e ↦ !envClients.containsKey e.id) {id : String}
    (h : id ∈ activeIds (buildRows registry models endpoints)) : ¬ envClients.containsKey id := by
  obtain ⟨row, hrow, rfl⟩ := List.mem_map.1 h
  have hendpoint := List.all_eq_true.1 hids _ (mem_buildRows hrow).2.2.1
  simpa using hendpoint

theorem routingStep?_rebuild
    (h : g.routingStep? regexNew registry envClients (.rebuild models endpoints onEmpty) =
      some g') :
    (endpoints.all fun e ↦ !envClients.containsKey e.id) ∧
      g' = (g.rebuildTargetsFromDb registry models endpoints onEmpty).1 := by
  obtain ⟨hids, hg'⟩ := Option.ite_none_right_eq_some.1 h
  exact ⟨hids, (Option.some.inj hg').symm⟩

/-- No tracked run loses a client of the environment. -/
theorem keepsEnv_invariant (regexNew : String → Option Regex) (registry : ProviderRegistry)
    (envClients : KeyMap String ProviderClient) :
    ((routingRuns regexNew registry envClients).guard
      (RebuildsTracked registry envClients)).Invariant (KeepsEnv envClients) where
  init g hg := by
    obtain ⟨config, rfl⟩ := hg
    exact fun _ _ hclient ↦ hclient
  step g op g' hkeep hstep := by
    obtain ⟨hstep, hok⟩ := hstep
    cases op with
    | rebuild models endpoints onEmpty =>
      obtain ⟨hids, rfl⟩ := routingStep?_rebuild hstep
      rcases rebuildTargetsFromDb_cases g registry models endpoints onEmpty with
        ⟨-, hcall⟩ | ⟨happlied, hcall⟩
      · rw [hcall]
        exact hkeep
      · rw [hcall]
        exact ((clientsExact_iff_tracked hkeep fun id ↦
          not_containsKey_of_mem_activeIds hids).2 (hok happlied)).env
    | reload config =>
      obtain rfl := Option.some.inj hstep
      intro id client hclient
      rw [reloadConfig, providers_applyAndRecord]
      exact hkeep id client hclient
    | rollback version =>
      obtain rfl := Option.some.inj hstep
      intro id client hclient
      rw [providers_rollbackConfig]
      exact hkeep id client hclient
    | traffic key breaker =>
      obtain rfl := Option.some.inj hstep
      exact hkeep

/-- **Registrations follow routing.** In every run whose rebuilds find their clients tracked, a
rebuild that reports `applied = false` changes nothing, and one that applies leaves the keys of the
active endpoints that store one and breakers of active endpoints only; its clients are the
environment's and the active endpoints', exactly when it finds them tracked too. -/
theorem registrations_in_step
    (hg : ((routingRuns regexNew registry envClients).guard
      (RebuildsTracked registry envClients)).Reachable g)
    (hstep : (routingRuns regexNew registry envClients).Step g (.rebuild models endpoints onEmpty)
      g') :
    let rows := buildRows registry models endpoints
    let outcome := (g.rebuildTargetsFromDb registry models endpoints onEmpty).2
    (outcome.applied = false → g' = g) ∧
      (outcome.applied = true →
        (∀ id, g'.providerKeys.containsKey id ↔
          ∃ row ∈ rows, row.endpoint.id = id ∧ row.endpoint.storedKey.isSome) ∧
        (∀ id, g'.circuitBreakers.containsKey id → id ∈ activeIds rows) ∧
        (ClientsExact envClients g' rows ↔ Tracked envClients g rows)) := by
  intro rows outcome
  have hkeep := (keepsEnv_invariant regexNew registry envClients).of_reachable hg
  obtain ⟨hids, rfl⟩ := routingStep?_rebuild hstep
  have happlied : outcome.applied = !keepsPrevious rows onEmpty := applied_rebuildTargetsFromDb
  cases hkept : keepsPrevious rows onEmpty with
  | true =>
    refine ⟨fun _ ↦ rebuildTargetsFromDb_kept hkept, fun h ↦ ?_⟩
    rw [happlied, hkept] at h
    cases h
  | false =>
    refine ⟨fun h ↦ ?_, fun _ ↦ ?_⟩
    · rw [happlied, hkept] at h
      cases h
    · rw [rebuildTargetsFromDb_applied hkept]
      exact ⟨fun id ↦ containsKey_providerKeys_applyRows,
        fun id ↦ mem_activeIds_of_circuitBreakers_applyRows,
        clientsExact_iff_tracked hkeep fun id ↦ not_containsKey_of_mem_activeIds hids⟩

/-! ### One model, one endpoint at a time -/

/-- Fresh from an exact rebuild, a gateway is tracked whatever the next rebuild routes. -/
theorem ClientsExact.tracked (h : ClientsExact envClients g rows)
    (htargets : g.targets = newTargets rows)
    (hrows : ∀ id ∈ activeIds rows, ¬ envClients.containsKey id) (rows' : List BuiltRow) :
    Tracked envClients g rows' where
  named id hreg hnot _ := by
    rw [htargets, targetIds_newTargets]
    exact ((h.exact id).1 hreg).resolve_left hnot
  spared id hlive := by
    rw [htargets, targetIds_newTargets] at hlive
    exact hrows id hlive

/-- A gateway booted with the default configuration and the environment's Anthropic client. -/
def bootAnthropic : Gateway :=
  { Gateway.new (fun _ ↦ none) .default with
    providers := KeyMap.empty.insert "anthropic" (.newAnthropic none) }

/-- The runs from there, with the registry the source builds. -/
def anthropicRuns : TransitionSystem Gateway RoutingOp :=
  routingRuns (fun _ ↦ none) buildProviderRegistry bootAnthropic.providers

/-- The tables in which the model `claude` has a single endpoint, under this id. -/
def endpointOf (id : String) : ModelEndpoint := ⟨id, "m", "anthropic", none, some "key", 1, true⟩

/-- The rebuild from those tables. -/
def rotateTo (id : String) : RoutingOp := .rebuild [⟨"m", "claude", true⟩] [endpointOf id] .apply

/-- What it yields. -/
def rotationRows (id : String) : List BuiltRow :=
  [⟨⟨"m", "claude", true⟩, endpointOf id, .newAnthropic none⟩]

/-- Rotating the model from one endpoint to the next prunes the first one's client. -/
theorem registrations_in_step_rotation : ∃ g g',
    (anthropicRuns.guard (RebuildsTracked buildProviderRegistry bootAnthropic.providers)).Reachable
      g ∧ g.providers.containsKey "ep-1" ∧ anthropicRuns.Step g (rotateTo "ep-2") g' ∧
      ClientsExact bootAnthropic.providers g' (rotationRows "ep-2") := by
  have hboot : Tracked bootAnthropic.providers bootAnthropic (rotationRows "ep-1") :=
    ⟨fun id hreg hnot ↦ absurd hreg hnot, fun id hlive ↦ by cases hlive⟩
  have henv : ∀ id ∈ activeIds (rotationRows "ep-1"), ¬ bootAnthropic.providers.containsKey id := by
    decide
  have hfirst := (clientsExact_iff_tracked (fun _ _ h ↦ h) henv).2 hboot
  have hsecond := hfirst.tracked rfl henv (rotationRows "ep-2")
  have hg : (anthropicRuns.guard (RebuildsTracked buildProviderRegistry
      bootAnthropic.providers)).Reachable (bootAnthropic.applyRows (rotationRows "ep-1")) :=
    .step (.init ⟨.default, rfl⟩) (l := rotateTo "ep-1") ⟨rfl, fun _ ↦ hboot⟩
  have hstep : anthropicRuns.Step (bootAnthropic.applyRows (rotationRows "ep-1"))
      (rotateTo "ep-2") ((bootAnthropic.applyRows (rotationRows "ep-1")).applyRows
        (rotationRows "ep-2")) := rfl
  exact ⟨_, _, hg, by decide, hstep, ((registrations_in_step hg hstep).2 rfl).2.2.2 hsecond⟩

/-- A configuration change between the two rebuilds takes the first endpoint off the target list,
and its client stays registered. -/
theorem reload_leaks_client : ∃ g g', anthropicRuns.Reachable g ∧
    anthropicRuns.Step g (rotateTo "ep-2") g' ∧ g'.providers.containsKey "ep-1" ∧
      ¬ ClientsExact bootAnthropic.providers g' (rotationRows "ep-2") := by
  have hboot : ∃ config, bootAnthropic = { Gateway.new (fun _ ↦ none) config with
      providers := bootAnthropic.providers } := ⟨.default, rfl⟩
  refine ⟨_, _, TransitionSystem.reachable_of_foldlM hboot [rotateTo "ep-1", .reload .default] rfl,
    rfl, by decide, fun h ↦ ?_⟩
  exact absurd ((h.exact "ep-1").1 (by decide)) (by decide)

end Gateway

end Himadri
