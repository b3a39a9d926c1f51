import Himadri.Gateway.Rebuild
import Himadri.Gateway.Selection
import Himadri.Provider.Registry

/-!
# What the catalog advertises

`GET /v1/models` lists the enabled models with an enabled routable endpoint, by a static list of
provider types (`list_enabled_models_for_api`); a rebuild makes a target of each enabled endpoint
that the registry builds a client for. The two rules agree on every endpoint wherever the registry
knows exactly the types of the list (`isOk_build_iff`), so the catalog and the targets have the same
models (`catalog_routes`).
-/

namespace Himadri

/-! ### The static list -/

/-- `KNOWN_PROVIDER_TYPES`. -/
def knownProviderTypes : List String :=
  ["openai", "anthropic", "gemini", "openrouter", "together", "groq", "fireworks", "deepinfra",
    "cerebras", "novita"]

/-- `is_known_provider_type`. -/
def isKnownProviderType (providerType : String) : Bool := knownProviderTypes.contains providerType

/-- `endpoint_is_routable`. -/
def endpointIsRoutable (providerType : String) (baseUrl : Option String) : Bool :=
  isKnownProviderType providerType || (baseUrl.map Text.trim).any (!·.isEmpty)

/-! ### The catalog -/

/-- `Model` with the second it was created in. -/
structure DatedModel extends Model where
  createdAt : ℤ

/-- `ModelObject`. -/
structure ModelObject where
  id : String
  object : String
  created : ℕ
  ownedBy : String
  deriving DecidableEq

/-- An endpoint that counts for the catalog. -/
def ModelEndpoint.listed (e : ModelEndpoint) : Bool :=
  e.enabled && endpointIsRoutable e.providerType e.baseUrl

/-- `owned_by`: the provider type of the first such endpoint, by model id. -/
def ownedBy (endpoints : List ModelEndpoint) : KeyMap String String :=
  endpoints.foldl (fun owners e ↦
    if e.listed && !owners.containsKey e.modelId then owners.insert e.modelId e.providerType
    else owners) .empty

/-- `AdminHandlers::list_enabled_models_for_api`, on the rows of the stores in their order. -/
def listEnabledModelsForApi (models : List DatedModel) (endpoints : List ModelEndpoint) :
    List ModelObject :=
  (models.filter (·.enabled)).filterMap fun m ↦
    ((ownedBy endpoints).get m.id).map fun owner ↦
      -- `as u64` wraps
      ⟨m.name, "model", (m.createdAt % (UInt64.size : ℤ)).toNat, owner⟩

/-- The loop keeps the first owner. -/
theorem get_foldl_ownedBy (endpoints : List ModelEndpoint) (owners : KeyMap String String)
    (id : String) :
    (endpoints.foldl (fun owners e ↦
      if e.listed && !owners.containsKey e.modelId then owners.insert e.modelId e.providerType
      else owners) owners).get id =
      (owners.get id).or
        ((endpoints.find? fun e ↦ e.modelId == id && e.listed).map (·.providerType)) := by
  induction endpoints generalizing owners with
  | nil => exact Option.or_none.symm
  | cons e endpoints ih =>
    rw [List.foldl_cons, ih]
    by_cases hid : e.modelId = id
    · rw [List.find?_cons]
      rcases hlisted : e.listed with - | -
      · rw [hid, beq_self_eq_true]
        rfl
      · rcases howner : owners.get id with - | owner
        · rw [KeyMap.containsKey, hid, howner, beq_self_eq_true]
          show ((owners.insert id e.providerType).get id).or _ = _
          rw [KeyMap.get_insert_self]
          rfl
        · rw [KeyMap.containsKey, hid, howner]
          show (owners.get id).or _ = _
          rw [howner]
          rfl
    · rw [List.find?_cons, beq_eq_false_iff_ne.2 hid]
      split
      · rw [KeyMap.get_insert_of_ne (Ne.symm hid)]
        rfl
      · rfl

/-- A model is owned exactly if some endpoint of it counts. -/
theorem isSome_ownedBy_iff {endpoints : List ModelEndpoint} {id : String} :
    ((ownedBy endpoints).get id).isSome ↔
      ∃ e ∈ endpoints, e.modelId = id ∧ e.listed = true := by
  rw [ownedBy, get_foldl_ownedBy, KeyMap.get_empty, Option.none_or, Option.isSome_map,
    List.find?_isSome]
  simp only [Bool.and_eq_true, beq_iff_eq]

theorem mem_listEnabledModelsForApi {models : List DatedModel} {endpoints : List ModelEndpoint}
    {name : String} :
    name ∈ (listEnabledModelsForApi models endpoints).map (·.id) ↔
      ∃ m ∈ models, m.enabled = true ∧ m.name = name ∧
        ∃ e ∈ endpoints, e.modelId = m.id ∧ e.listed = true := by
  simp only [← isSome_ownedBy_iff, List.mem_map, listEnabledModelsForApi, List.mem_filterMap,
    List.mem_filter, Option.map_eq_some_iff, Option.isSome_iff_exists]
  constructor
  · rintro ⟨_, ⟨m, ⟨hm, henabled⟩, owner, howner, rfl⟩, rfl⟩
    exact ⟨m, hm, henabled, rfl, owner, howner⟩
  · rintro ⟨m, hm, henabled, rfl, owner, howner⟩
    exact ⟨_, ⟨m, ⟨hm, henabled⟩, owner, howner, rfl⟩, rfl⟩

/-! ### The registry -/

/-- The registry knows exactly the types of the list, and builds them for any base URL. -/
structure MapProviderRegistry.Lists (registry : MapProviderRegistry) : Prop where
  isSome_iff : ∀ type, (registry.builders.get type).isSome ↔ isKnownProviderType type = true
  isOk : ∀ type builder, registry.builders.get type = some builder →
    ∀ baseUrl, (builder baseUrl).isOk = true

namespace MapProviderRegistry.Lists

variable {registry : MapProviderRegistry} (h : registry.Lists)
include h

/-- The two rules agree on every endpoint: `endpoint_is_routable` and `build`. -/
theorem isOk_build_iff (providerType : String) (baseUrl : Option String) :
    (registry.build providerType baseUrl).isOk = true ↔
      endpointIsRoutable providerType baseUrl = true := by
  rw [endpointIsRoutable, Bool.or_eq_true, ← h.isSome_iff, MapProviderRegistry.build]
  rcases hget : registry.builders.get providerType with - | builder
  · have hurl : (baseUrl.map Text.trim).any (!·.isEmpty) =
        (normalizeBaseUrl baseUrl).isSome := by
      rcases baseUrl with - | url
      · rfl
      · rw [normalizeBaseUrl, Option.isSome_filter]
    rw [hurl]
    rcases normalizeBaseUrl baseUrl with - | url
    · exact iff_of_false Bool.false_ne_true (not_or.2 ⟨Bool.false_ne_true, Bool.false_ne_true⟩)
    · exact iff_of_true rfl (.inr rfl)
  · exact iff_of_true (h.isOk _ _ hget _) (.inl rfl)

end MapProviderRegistry.Lists

/-- The registry the gateway is built with and the list name the same types. -/
theorem lists_buildProviderRegistry :
    MapProviderRegistry.new.registerAnthropic.registerGemini.registerCompatible.Lists := by
  have hbuilders := MapProviderRegistry.forall_builders
    (P := fun type builder ↦ isKnownProviderType type = true ∧
      ∀ baseUrl, (builder baseUrl).isOk = true)
    ⟨by decide, fun _ ↦ rfl⟩ ⟨by decide, fun _ ↦ rfl⟩ fun p hp ↦
      ⟨List.forall_mem_map.1 (by decide : ∀ type ∈ presets.map (·.1),
        isKnownProviderType type = true) p hp, fun _ ↦ rfl⟩
  refine ⟨fun type ↦ ⟨fun hsome ↦ ?_, fun hknown ↦ ?_⟩, fun type builder hget ↦
    (hbuilders type builder hget).2⟩
  · obtain ⟨builder, hget⟩ := Option.isSome_iff_exists.1 hsome
    exact (hbuilders type builder hget).1
  · rw [isKnownProviderType, List.contains_iff_mem] at hknown
    simp only [knownProviderTypes, List.mem_cons, List.not_mem_nil, or_false] at hknown
    rcases hknown with rfl | rfl | rfl | rfl | rfl | rfl | rfl | rfl | rfl | rfl
    all_goals rfl

/-! ### The targets -/

/-- The names the targets carry. -/
def modelNames (targets : List Target) : List String := targets.flatMap fun t ↦ t.models.getD []

section Targets

variable {registry : MapProviderRegistry} {models : List DatedModel}
  {endpoints : List ModelEndpoint} {name : String}

theorem mem_modelNames_newTargets {rows : List BuiltRow} :
    name ∈ modelNames (newTargets rows) ↔ ∃ row ∈ rows, row.model.name = name := by
  simp only [modelNames, newTargets, List.mem_flatMap, List.mem_map]
  constructor
  · rintro ⟨_, ⟨row, hrow, rfl⟩, hname⟩
    exact ⟨row, hrow, (List.mem_singleton.1 hname).symm⟩
  · rintro ⟨row, hrow, rfl⟩
    exact ⟨_, ⟨row, hrow, rfl⟩, List.mem_singleton_self _⟩

/-- What a rebuild would list and what the catalog lists. -/
theorem MapProviderRegistry.Lists.mem_buildRows_iff (h : registry.Lists) :
    (∃ row ∈ buildRows ⟨registry.build⟩ (models.map (·.toModel)) endpoints,
      row.model.name = name) ↔ name ∈ (listEnabledModelsForApi models endpoints).map (·.id) := by
  rw [mem_listEnabledModelsForApi]
  constructor
  · rintro ⟨row, hrow, rfl⟩
    obtain ⟨hmodel, henabled, hendpoint, hid, hon, hbuild⟩ := mem_buildRows hrow
    obtain ⟨m, hm, hmrow⟩ := List.mem_map.1 hmodel
    have hroutable : endpointIsRoutable row.endpoint.providerType row.endpoint.baseUrl = true := by
      rw [← h.isOk_build_iff]
      exact congrArg Except.isOk hbuild
    refine ⟨m, hm, by rw [hmrow]; exact henabled, by rw [hmrow], row.endpoint, hendpoint,
      by rw [hmrow]; exact hid, ?_⟩
    rw [ModelEndpoint.listed, hon, hroutable]
    rfl
  · rintro ⟨m, hm, henabled, rfl, e, he, hid, hlisted⟩
    rw [ModelEndpoint.listed, Bool.and_eq_true, ← h.isOk_build_iff] at hlisted
    rcases hbuild : registry.build e.providerType e.baseUrl with err | client
    · rw [hbuild] at hlisted
      exact absurd hlisted.2 Bool.false_ne_true
    · refine ⟨⟨m.toModel, e, client⟩, List.mem_filterMap.2 ⟨(m.toModel, e), ?_, ?_⟩, rfl⟩
      · refine List.mem_flatMap.2 ⟨m.toModel, List.mem_filter.2
          ⟨List.mem_map_of_mem hm, henabled⟩, List.mem_map.2 ⟨e, List.mem_filter.2 ⟨he, ?_⟩, rfl⟩⟩
        rw [hid, beq_self_eq_true, hlisted.1]
        rfl
      · simp only [hbuild]

theorem eligible_applyRows_ne_nil_iff {g : Gateway} {rows : List BuiltRow} :
    (g.applyRows rows).eligible name ≠ [] ↔ ∃ row ∈ rows, row.model.name = name := by
  have hne : (g.applyRows rows).eligible name ≠ [] ↔ ∃ t, t ∈ (g.applyRows rows).eligible name :=
    ⟨List.exists_mem_of_ne_nil _, fun ⟨_, ht⟩ ↦ List.ne_nil_of_mem ht⟩
  rw [hne]
  simp only [Gateway.mem_eligible, Gateway.targets_applyRows, newTargets, List.mem_map]
  constructor
  · rintro ⟨_, ⟨row, hrow, rfl⟩, hserves⟩
    exact ⟨row, hrow, (List.mem_singleton.1 (List.contains_iff_mem.1 hserves)).symm⟩
  · rintro ⟨row, hrow, rfl⟩
    exact ⟨_, ⟨row, hrow, rfl⟩, List.contains_iff_mem.2 (List.mem_singleton_self _)⟩

end Targets

/-- A selection fails for want of a provider exactly if no live target serves the model. -/
theorem Gateway.selectTargets_eq_notFound {g : Gateway} {env : SelectionEnv}
    {request : ChatCompletionRequest} {auth : Option AuthContext} :
    g.selectTargets env request auth = .error (.notFound
      ("No provider is configured to serve model '" ++ request.model ++ "'")) ↔
      g.eligible request.model = [] := by
  unfold Gateway.selectTargets
  split
  · next hnil => exact iff_of_true rfl hnil
  · next hne =>
    refine iff_of_false (fun h ↦ ?_) hne
    have hsome : (g.eligible request.model).isEmpty = false := List.isEmpty_eq_false_iff.2 hne
    rw [Strategy.selectOrdered, hsome] at h
    replace h : filterTargetsByRbac g.config auth _ = _ := h
    unfold filterTargetsByRbac at h
    split at h
    · cases h
    · split at h
      · cases h
      · split at h
        · cases h
        · cases h

/-- The catalog names the models that the targets of a rebuild from the same tables carry. After one
that is applied these are the models that find an eligible target, and no others fail to be selected
for want of one. -/
theorem catalog_routes {registry : MapProviderRegistry} (h : registry.Lists)
    (models : List DatedModel) (endpoints : List ModelEndpoint) :
    (∀ name, name ∈ (listEnabledModelsForApi models endpoints).map (·.id) ↔
      name ∈ modelNames (newTargets
        (buildRows ⟨registry.build⟩ (models.map (·.toModel)) endpoints))) ∧
    ∀ (g g' : Gateway) (onEmpty : OnEmpty) (outcome : RebuildOutcome),
      g.rebuildTargetsFromDb ⟨registry.build⟩ (models.map (·.toModel)) endpoints onEmpty =
          (g', outcome) → outcome.applied = true →
        (∀ name, name ∈ (listEnabledModelsForApi models endpoints).map (·.id) ↔
          g'.eligible name ≠ []) ∧
        ∀ env request auth, request.model ∉ (listEnabledModelsForApi models endpoints).map (·.id) ↔
          g'.selectTargets env request auth = .error (.notFound
            ("No provider is configured to serve model '" ++ request.model ++ "'")) := by
  refine ⟨fun name ↦ ?_, fun g g' onEmpty outcome hcall happlied ↦ ?_⟩
  · rw [mem_modelNames_newTargets, h.mem_buildRows_iff]
  · have heligible (name : String) :
        name ∈ (listEnabledModelsForApi models endpoints).map (·.id) ↔ g'.eligible name ≠ [] := by
      have hg : (g.rebuildTargetsFromDb _ _ endpoints onEmpty).1 = g' := congrArg Prod.fst hcall
      have hout : (g.rebuildTargetsFromDb _ _ endpoints onEmpty).2 = outcome :=
        congrArg Prod.snd hcall
      rw [← hout, Gateway.applied_rebuildTargetsFromDb, Bool.not_eq_true'] at happlied
      rw [← hg, Gateway.rebuildTargetsFromDb_applied happlied, eligible_applyRows_ne_nil_iff,
        h.mem_buildRows_iff]
    refine ⟨heligible, fun env request auth ↦ ?_⟩
    rw [heligible, not_not, Gateway.selectTargets_eq_notFound]

/-- A table of one model, with two endpoints: one of an unknown type with a blank base URL, which
does not count, and one of a known type. -/
def gptModels : List DatedModel := [⟨⟨"m-1", "gpt-4o", true⟩, 0⟩]

/-- The endpoints. -/
def gptEndpoints : List ModelEndpoint :=
  [⟨"e-1", "m-1", "acme", some " ", none, 1, true⟩, ⟨"e-2", "m-1", "openai", none, none, 1, true⟩]

/-- The model is listed, and routes after a rebuild of a new gateway. -/
theorem catalog_routes_gpt :
    "gpt-4o" ∈ (listEnabledModelsForApi gptModels gptEndpoints).map (·.id) ∧
      ((Gateway.new (fun _ ↦ none) Config.default).rebuildTargetsFromDb buildProviderRegistry
        (gptModels.map (·.toModel)) gptEndpoints .apply).1.eligible "gpt-4o" ≠ [] := by
  have hlisted : "gpt-4o" ∈ (listEnabledModelsForApi gptModels gptEndpoints).map (·.id) :=
    mem_listEnabledModelsForApi.2 ⟨_, List.mem_singleton_self _, rfl, rfl, _,
      List.mem_cons_of_mem _ (List.mem_singleton_self _), rfl, by decide⟩
  have happlied : ((Gateway.new (fun _ ↦ none) Config.default).rebuildTargetsFromDb
      buildProviderRegistry (gptModels.map (·.toModel)) gptEndpoints .apply).2.applied = true := by
    rw [Gateway.applied_rebuildTargetsFromDb, Gateway.keepsPrevious,
      show (OnEmpty.apply == .keepPrevious) = false from rfl, Bool.and_false]
    rfl
  exact ⟨hlisted, (((catalog_routes lists_buildProviderRegistry gptModels gptEndpoints).2
    (Gateway.new (fun _ ↦ none) .default) _ .apply _ rfl happlied).1 "gpt-4o").1 hlisted⟩

end Himadri
