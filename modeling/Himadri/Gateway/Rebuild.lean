import Himadri.Admin.Tables
import Himadri.Gateway.State

/-!
# Rebuilding the routing targets from the database

`rebuild_targets_from_db`: every enabled endpoint of every enabled model whose client can be built
becomes one target, and the clients, keys, targets and breakers of the gateway are brought in line
with those, each map for itself. `buildRows` is what the tables and the registry yield, and
`rebuildTargetsFromDb` is the uninterrupted call, made of the same pieces the source runs one after
another.
-/

namespace Himadri

/-- `OnEmpty`. -/
inductive OnEmpty
  | apply
  | keepPrevious
  deriving DecidableEq

/-- `SkippedEndpoint`. -/
structure SkippedEndpoint where
  endpointId : String
  providerType : String
  reason : String
  deriving DecidableEq

/-- `RebuildOutcome`. -/
structure RebuildOutcome where
  targetsBuilt : ℕ
  skipped : List SkippedEndpoint
  applied : Bool
  deriving DecidableEq

/-- An enabled endpoint of an enabled model together with the client built for it. -/
structure BuiltRow where
  model : Model
  endpoint : ModelEndpoint
  client : ProviderClient
  deriving DecidableEq

/-- The target pushed for the row. -/
def BuiltRow.target (row : BuiltRow) : Target where
  id := some row.endpoint.id
  provider := row.endpoint.providerType
  weight := row.endpoint.weight
  models := some [row.model.name]
  apiKeyEnv := none
  baseUrl := row.endpoint.baseUrl

/-! ### What the tables yield -/

/-- The pairs the two loops visit. -/
def enabledEndpoints (models : List Model) (endpoints : List ModelEndpoint) :
    List (Model × ModelEndpoint) :=
  (models.filter (·.enabled)).flatMap fun model ↦
    (endpoints.filter fun e ↦ e.modelId == model.id && e.enabled).map (model, ·)

section Rows

variable (registry : ProviderRegistry) (models : List Model) (endpoints : List ModelEndpoint)

/-- The endpoints that become targets. -/
def buildRows : List BuiltRow :=
  (enabledEndpoints models endpoints).filterMap fun p ↦
    match registry.build p.2.providerType p.2.baseUrl with
    | .ok client => some ⟨p.1, p.2, client⟩
    | .error _ => none

/-- The endpoints whose client cannot be built. -/
def skippedRows : List SkippedEndpoint :=
  (enabledEndpoints models endpoints).filterMap fun p ↦
    match registry.build p.2.providerType p.2.baseUrl with
    | .ok _ => none
    | .error e => some ⟨p.2.id, p.2.providerType, e.display⟩

variable {registry models endpoints}

/-- A row comes from an enabled endpoint of an enabled model. -/
theorem mem_buildRows {row : BuiltRow} (h : row ∈ buildRows registry models endpoints) :
    row.model ∈ models ∧ row.model.enabled ∧ row.endpoint ∈ endpoints ∧
      row.endpoint.modelId = row.model.id ∧ row.endpoint.enabled ∧
        registry.build row.endpoint.providerType row.endpoint.baseUrl = .ok row.client := by
  obtain ⟨⟨model, endpoint⟩, hmem, hrow⟩ := List.mem_filterMap.1 h
  obtain ⟨model', hmodel, hpair⟩ := List.mem_flatMap.1 hmem
  obtain ⟨endpoint', hendpoint, heq⟩ := List.mem_map.1 hpair
  obtain ⟨rfl, rfl⟩ := Prod.mk.inj heq
  split at hrow
  · next client hbuild =>
    obtain rfl := Option.some.inj hrow
    simp only [List.mem_filter, Bool.and_eq_true, beq_iff_eq] at hmodel hendpoint
    exact ⟨hmodel.1, hmodel.2, hendpoint.1, hendpoint.2.1, hendpoint.2.2, hbuild⟩
  · cases hrow

end Rows

section RowLists

variable (rows : List BuiltRow)

/-- `new_targets`. -/
def newTargets : List Target := rows.map (·.target)

/-- `new_keys`. -/
def newKeys : List (String × String) :=
  rows.filterMap fun row ↦ row.endpoint.storedKey.map (row.endpoint.id, ·)

/-- The clients the loop registers, under the endpoint ids. -/
def newClients : List (String × ProviderClient) :=
  rows.map fun row ↦ (row.endpoint.id, row.client)

/-- `active_ids`. -/
def activeIds : List String := rows.map (·.endpoint.id)

variable {rows}

@[simp] theorem newClients_map_fst : (newClients rows).map Prod.fst = activeIds rows := by
  simp [newClients, activeIds, Function.comp_def]

/-- An id has a new key when one of its rows stores one. -/
theorem mem_newKeys_map_fst {id : String} :
    id ∈ (newKeys rows).map Prod.fst ↔
      ∃ row ∈ rows, row.endpoint.id = id ∧ row.endpoint.storedKey.isSome := by
  simp only [newKeys, List.map_filterMap, List.mem_filterMap, Option.map_map]
  refine exists_congr fun row ↦ and_congr_right fun _ ↦ ?_
  cases row.endpoint.storedKey <;> simp

end RowLists

/-- The endpoint ids of a target list. -/
def targetIds (targets : List Target) : List String := targets.filterMap (·.id)

@[simp] theorem targetIds_newTargets (rows : List BuiltRow) :
    targetIds (newTargets rows) = activeIds rows := by
  simp [targetIds, newTargets, activeIds, BuiltRow.target, List.filterMap_map]

/-! ### The call -/

namespace Gateway

variable (g : Gateway) (rows : List BuiltRow)

/-- Register the clients. -/
def registerClients : Gateway := { g with providers := g.providers.insertAll (newClients rows) }

/-- Insert the new keys, then drop the others. -/
def replaceKeys : Gateway :=
  { g with
    providerKeys := (g.providerKeys.insertAll (newKeys rows)).retain
      fun id ↦ decide (id ∈ (newKeys rows).map Prod.fst) }

/-- Swap the target list in, under the config and the targets lock. -/
def swapTargets : Gateway :=
  { g with config := { g.config with targets := newTargets rows }, targets := newTargets rows }

/-- Drop the breakers of endpoints that no longer route. -/
def retainBreakers : Gateway :=
  { g with circuitBreakers := g.circuitBreakers.retain fun id ↦ decide (id ∈ activeIds rows) }

/-- The ids of `targets` whose clients a rebuild to `rows` prunes. -/
def staleIds (targets : List Target) (rows : List BuiltRow) : List String :=
  (targetIds targets).filter fun id ↦ decide (id ∉ activeIds rows)

/-- Prune clients. -/
def pruneClients (ids : List String) : Gateway := { g with providers := g.providers.removeAll ids }

/-- The early exit of `rebuild_targets_from_db`. -/
def keepsPrevious (rows : List BuiltRow) (onEmpty : OnEmpty) : Bool :=
  rows.isEmpty && onEmpty == .keepPrevious

/-- Everything `rebuild_targets_from_db` does when it applies. -/
def applyRows : Gateway :=
  ((((g.registerClients rows).replaceKeys rows).swapTargets rows).retainBreakers rows).pruneClients
    (staleIds g.targets rows)

/-- `Gateway::rebuild_targets_from_db`. -/
def rebuildTargetsFromDb (registry : ProviderRegistry) (models : List Model)
    (endpoints : List ModelEndpoint) (onEmpty : OnEmpty) : Gateway × RebuildOutcome :=
  let rows := buildRows registry models endpoints
  let skipped := skippedRows registry models endpoints
  if keepsPrevious rows onEmpty then (g.registerClients rows, ⟨0, skipped, false⟩)
  else (g.applyRows rows, ⟨rows.length, skipped, true⟩)

variable {g} {rows}

/-! ### What the call does -/

/-- The clients after a rebuild: the old and the new ones, less those of ids that routed before and
do not route now. -/
theorem containsKey_providers_applyRows {id : String} :
    (g.applyRows rows).providers.containsKey id ↔
      (g.providers.containsKey id ∧ id ∉ targetIds g.targets) ∨ id ∈ activeIds rows := by
  simp only [applyRows, pruneClients, retainBreakers, swapTargets, replaceKeys, registerClients,
    KeyMap.containsKey_removeAll, KeyMap.containsKey_insertAll, newClients_map_fst, staleIds,
    List.mem_filter, decide_eq_true_eq]
  tauto

/-- A client of an id that neither routed before nor routes now is left alone. -/
theorem get_providers_applyRows_of_notMem {id : String} (hlive : id ∉ targetIds g.targets)
    (hactive : id ∉ activeIds rows) : (g.applyRows rows).providers.get id = g.providers.get id := by
  have hstale : id ∉ staleIds g.targets rows := fun h ↦ hlive (List.mem_filter.1 h).1
  simp only [applyRows, pruneClients, retainBreakers, swapTargets, replaceKeys, registerClients,
    KeyMap.get_removeAll, if_neg hstale]
  exact KeyMap.get_insertAll_of_notMem (by rwa [newClients_map_fst])

theorem containsKey_providerKeys_applyRows {id : String} :
    (g.applyRows rows).providerKeys.containsKey id ↔
      ∃ row ∈ rows, row.endpoint.id = id ∧ row.endpoint.storedKey.isSome := by
  rw [← mem_newKeys_map_fst]
  simp only [applyRows, pruneClients, retainBreakers, swapTargets, replaceKeys, registerClients,
    KeyMap.containsKey_retain, KeyMap.containsKey_insertAll, decide_eq_true_eq]
  tauto

theorem mem_activeIds_of_circuitBreakers_applyRows {id : String}
    (h : (g.applyRows rows).circuitBreakers.containsKey id) : id ∈ activeIds rows := by
  have hkeep := (KeyMap.containsKey_retain.1 h).2
  simpa using hkeep

@[simp] theorem targets_applyRows : (g.applyRows rows).targets = newTargets rows := rfl

section Outcome

variable {registry : ProviderRegistry} {models : List Model} {endpoints : List ModelEndpoint}
  {onEmpty : OnEmpty}

theorem applied_rebuildTargetsFromDb :
    (g.rebuildTargetsFromDb registry models endpoints onEmpty).2.applied =
      !keepsPrevious (buildRows registry models endpoints) onEmpty := by
  cases h : keepsPrevious (buildRows registry models endpoints) onEmpty <;>
    simp [rebuildTargetsFromDb, h]

theorem rebuildTargetsFromDb_applied
    (h : keepsPrevious (buildRows registry models endpoints) onEmpty = false) :
    (g.rebuildTargetsFromDb registry models endpoints onEmpty).1 =
      g.applyRows (buildRows registry models endpoints) := by
  simp [rebuildTargetsFromDb, h]

/-- A rebuild that keeps the previous targets touches nothing: it has registered no client. -/
theorem rebuildTargetsFromDb_kept
    (h : keepsPrevious (buildRows registry models endpoints) onEmpty = true) :
    (g.rebuildTargetsFromDb registry models endpoints onEmpty).1 = g := by
  have hempty : buildRows registry models endpoints = [] := by
    rw [keepsPrevious, Bool.and_eq_true, List.isEmpty_iff] at h
    exact h.1
  have hcall : (g.rebuildTargetsFromDb registry models endpoints onEmpty).1 =
      g.registerClients (buildRows registry models endpoints) := by
    simp [rebuildTargetsFromDb, h]
  rw [hcall, hempty]
  rfl

variable (g registry models endpoints onEmpty) in
/-- All that a rebuild can do: it leaves everything as it is, or applies its rows. -/
theorem rebuildTargetsFromDb_cases :
    (keepsPrevious (buildRows registry models endpoints) onEmpty = true ∧
      (g.rebuildTargetsFromDb registry models endpoints onEmpty).1 = g) ∨
      keepsPrevious (buildRows registry models endpoints) onEmpty = false ∧
        (g.rebuildTargetsFromDb registry models endpoints onEmpty).1 =
          g.applyRows (buildRows registry models endpoints) := by
  cases h : keepsPrevious (buildRows registry models endpoints) onEmpty with
  | true => exact .inl ⟨rfl, rebuildTargetsFromDb_kept h⟩
  | false => exact .inr ⟨rfl, rebuildTargetsFromDb_applied h⟩

end Outcome

end Gateway

end Himadri
