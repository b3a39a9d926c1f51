import Himadri.Gateway.Config
import Himadri.Gateway.Rebuild
import Himadri.Provider.Registry
import Himadri.Transition.System

/-!
# Routing converges to the database

Any number of admin mutations and configuration changes, interleaved at every store read: a mutation
commits, lists the models, lists the endpoints, asks who owns routing and rebuilds; a configuration
change applies, lists both and rebuilds, keeping the previous targets when the tables yield none.

Routing is in step with the tables (`InStep`) or some call has still to rebuild
(`routing_converges`). What can break this is the rebuild that ends the last such call: its snapshot
may be older than the tables, or it may keep a live list that is not the tables' (`Timely`).
-/

namespace Himadri

/-- The model and the endpoint store. -/
structure ModelStores where
  models : List Model
  endpoints : List ModelEndpoint

namespace ModelStores

variable (stores : ModelStores)

/-- What a rebuild from the stores as they are would route. -/
def rows (registry : ProviderRegistry) : List BuiltRow :=
  buildRows registry stores.models stores.endpoints

/-- The id is that of an enabled endpoint of an enabled model. -/
def Enabled (id : String) : Prop :=
  ∃ endpoint ∈ stores.endpoints, endpoint.id = id ∧ endpoint.enabled ∧
    ∃ model ∈ stores.models, endpoint.modelId = model.id ∧ model.enabled

instance (id : String) : Decidable (stores.Enabled id) :=
  inferInstanceAs (Decidable (∃ endpoint ∈ stores.endpoints, _ ∧ _ ∧ ∃ model ∈ stores.models, _))

theorem enabled_of_mem_activeIds {registry : ProviderRegistry} {id : String}
    (h : id ∈ activeIds (stores.rows registry)) : stores.Enabled id := by
  obtain ⟨row, hrow, rfl⟩ := List.mem_map.1 h
  obtain ⟨hmodel, hon, hendpoint, hid, henabled, -⟩ := mem_buildRows hrow
  exact ⟨row.endpoint, hendpoint, rfl, henabled, row.model, hmodel, hid, hon⟩

end ModelStores

/-- Every endpoint that a live target names is enabled, and where the stores yield a target the live
list is the one they yield. -/
structure InStep (registry : ProviderRegistry) (stores : ModelStores) (live : List Target) :
    Prop where
  enabled : ∀ target ∈ live, ∀ id, target.id = some id → stores.Enabled id
  exact : stores.rows registry ≠ [] → live = newTargets (stores.rows registry)

/-! ### Calls -/

/-- What an administrator can ask for. -/
inductive AdminRequest
  /-- Any write to the two stores. -/
  | mutate (change : ModelStores → ModelStores)
  | reload (config : Config)
  | rollback (version : ℕ)

/-- Which of the two rebuilding paths a call is on. -/
inductive Rebuilder
  /-- `AppState::rebuild_targets`. -/
  | mutation
  /-- `AppState::reassert_db_targets_after_config`. -/
  | config

/-- Where a call stands. -/
inductive AdminCall
  | requested (request : AdminRequest)
  | listModels (rebuilder : Rebuilder)
  | listEndpoints (rebuilder : Rebuilder) (models : List Model)
  | readOwner (models : List Model) (endpoints : List ModelEndpoint)
  | rebuild (models : List Model) (endpoints : List ModelEndpoint) (onEmpty : OnEmpty)
  | returned

namespace AdminCall

/-- The call has committed or applied, and has still to rebuild. -/
def Pending : AdminCall → Prop
  | .requested _ => False
  | .returned => False
  | _ => True

instance : ∀ call : AdminCall, Decidable call.Pending
  | .requested _ => inferInstanceAs (Decidable False)
  | .returned => inferInstanceAs (Decidable False)
  | .listModels _ => inferInstanceAs (Decidable True)
  | .listEndpoints _ _ => inferInstanceAs (Decidable True)
  | .readOwner _ _ => inferInstanceAs (Decidable True)
  | .rebuild _ _ _ => inferInstanceAs (Decidable True)

end AdminCall

/-- No call has still to rebuild. -/
def Quiet (calls : List AdminCall) : Prop := ∀ call ∈ calls, ¬ call.Pending

instance (calls : List AdminCall) : Decidable (Quiet calls) :=
  inferInstanceAs (Decidable (∀ call ∈ calls, _))

/-- A request comes in, or call `j` takes its next step. -/
inductive AdminOp
  | request (request : AdminRequest)
  | advance (j : ℕ)

/-- The stores, the gateway, and the calls in the order they came. -/
structure AdminRun where
  stores : ModelStores
  gateway : Gateway
  calls : List AdminCall

namespace AdminRun

variable (registry : ProviderRegistry) (regexNew : String → Option Regex)

/-- A gateway with the environment's clients, after the rebuild at startup. -/
def boot (config : Config) (envClients : KeyMap String ProviderClient) (stores : ModelStores) :
    AdminRun where
  stores := stores
  gateway := ({ Gateway.new regexNew config with providers := envClients }.rebuildTargetsFromDb
    registry stores.models stores.endpoints .keepPrevious).1
  calls := []

variable (s : AdminRun)

/-- Call `j` moves. -/
def move (j : ℕ) (call : AdminCall) : AdminRun := { s with calls := s.calls.set j call }

/-- Call `j` has applied a configuration, or failed to. -/
def applied (j : ℕ) : Gateway × Except GatewayError Unit → AdminRun
  | (gateway, .ok ()) => { s.move j (.listModels .config) with gateway := gateway }
  | (gateway, .error _) => { s.move j .returned with gateway := gateway }

/-- The next step of call `j`, by where it stands. -/
def advance (j : ℕ) : AdminCall → Option AdminRun
  | .requested (.mutate change) =>
    some { s.move j (.listModels .mutation) with stores := change s.stores }
  | .requested (.reload config) => some (s.applied j (s.gateway.reloadConfig regexNew config))
  | .requested (.rollback version) => some (s.applied j (s.gateway.rollbackConfig regexNew version))
  | .listModels rebuilder => some (s.move j (.listEndpoints rebuilder s.stores.models))
  | .listEndpoints .mutation models => some (s.move j (.readOwner models s.stores.endpoints))
  | .listEndpoints .config models =>
    some (s.move j (.rebuild models s.stores.endpoints .keepPrevious))
  | .readOwner models endpoints =>
    some (s.move j (.rebuild models endpoints
      (if s.gateway.dbOwnsRouting then .apply else .keepPrevious)))
  | .rebuild models endpoints onEmpty =>
    some
      { s.move j .returned with
        gateway := (s.gateway.rebuildTargetsFromDb registry models endpoints onEmpty).1 }
  | .returned => none

/-- One step. -/
def step? : AdminOp → Option AdminRun
  | .request request => some { s with calls := s.calls ++ [.requested request] }
  | .advance j => s.calls[j]?.bind (s.advance registry regexNew j)

/-- The runs of a gateway booted with a configuration file, whose targets carry no endpoint ids. -/
def runs : TransitionSystem AdminRun AdminOp :=
  .ofPartial
    (fun s ↦ ∃ config envClients stores, (∀ target ∈ config.targets, target.id = none) ∧
      s = boot registry regexNew config envClients stores)
    (step? registry regexNew)

end AdminRun

/-- The rebuild leaves what the stores call for. If it applies, its rows are those of the stores as
they are now, or the stores yield none and all its endpoints are still enabled; if it keeps the
previous targets, these are already those of the stores, or the stores yield none and all endpoints
routing are enabled. -/
def Timely (registry : ProviderRegistry) (stores : ModelStores) (live : List Target)
    (rows : List BuiltRow) (onEmpty : OnEmpty) : Prop :=
  if Gateway.keepsPrevious rows onEmpty then
    if stores.rows registry = [] then ∀ id ∈ targetIds live, stores.Enabled id
    else live = newTargets (stores.rows registry)
  else
    if stores.rows registry = [] then ∀ id ∈ activeIds rows, stores.Enabled id
    else newTargets rows = newTargets (stores.rows registry)

namespace AdminRun

/-- If call `j` rebuilds and no other has still to, its rebuild is timely. -/
def OrderlyCall (registry : ProviderRegistry) (s : AdminRun) (j : ℕ) : AdminCall → Prop
  | .rebuild models endpoints onEmpty =>
    Quiet (s.calls.set j .returned) →
      Timely registry s.stores s.gateway.targets (buildRows registry models endpoints) onEmpty
  | _ => True

/-- A rebuild that leaves no call pending is timely. -/
def Orderly (registry : ProviderRegistry) (s : AdminRun) : AdminOp → Prop
  | .advance j => ∀ call ∈ s.calls[j]?, s.OrderlyCall registry j call
  | .request _ => True

end AdminRun

section Decidable

variable (registry : ProviderRegistry)

instance (stores : ModelStores) (live : List Target) (rows : List BuiltRow) (onEmpty : OnEmpty) :
    Decidable (Timely registry stores live rows onEmpty) :=
  inferInstanceAs (Decidable (if Gateway.keepsPrevious rows onEmpty then
    if stores.rows registry = [] then ∀ id ∈ targetIds live, stores.Enabled id
    else live = newTargets (stores.rows registry)
  else
    if stores.rows registry = [] then ∀ id ∈ activeIds rows, stores.Enabled id
    else newTargets rows = newTargets (stores.rows registry)))

instance (s : AdminRun) (j : ℕ) : ∀ call, Decidable (s.OrderlyCall registry j call)
  | .rebuild _ _ _ => inferInstanceAs (Decidable (_ → Timely ..))
  | .requested _ => inferInstanceAs (Decidable True)
  | .listModels _ => inferInstanceAs (Decidable True)
  | .listEndpoints _ _ => inferInstanceAs (Decidable True)
  | .readOwner _ _ => inferInstanceAs (Decidable True)
  | .returned => inferInstanceAs (Decidable True)

instance (s : AdminRun) : ∀ op, Decidable (s.Orderly registry op)
  | .request _ => inferInstanceAs (Decidable True)
  | .advance j => inferInstanceAs (Decidable (∀ call ∈ s.calls[j]?, s.OrderlyCall registry j call))

end Decidable

/-! ### What a rebuild leaves -/

section InStep

variable {registry : ProviderRegistry} {stores : ModelStores} {live : List Target}

theorem inStep_iff : InStep registry stores live ↔
    if stores.rows registry = [] then ∀ id ∈ targetIds live, stores.Enabled id
    else live = newTargets (stores.rows registry) := by
  by_cases hrows : stores.rows registry = []
  · rw [if_pos hrows]
    constructor
    · intro h id hid
      obtain ⟨target, htarget, hid⟩ := List.mem_filterMap.1 hid
      exact h.enabled target htarget id hid
    · intro h
      refine ⟨fun target htarget id hid ↦ ?_, fun hne ↦ absurd hrows hne⟩
      exact h id (List.mem_filterMap.2 ⟨target, htarget, hid⟩)
  · rw [if_neg hrows]
    refine ⟨fun h ↦ h.exact hrows, fun h ↦ ⟨fun target htarget id hid ↦ ?_, fun _ ↦ h⟩⟩
    subst h
    have hactive : id ∈ activeIds (stores.rows registry) := by
      rw [← targetIds_newTargets]
      exact List.mem_filterMap.2 ⟨target, htarget, hid⟩
    exact stores.enabled_of_mem_activeIds hactive

theorem Gateway.targets_rebuildTargetsFromDb (g : Gateway) (models : List Model)
    (endpoints : List ModelEndpoint) (onEmpty : OnEmpty) :
    (g.rebuildTargetsFromDb registry models endpoints onEmpty).1.targets =
      if keepsPrevious (buildRows registry models endpoints) onEmpty then g.targets
      else newTargets (buildRows registry models endpoints) := by
  rcases rebuildTargetsFromDb_cases g registry models endpoints onEmpty with
    ⟨hkept, hcall⟩ | ⟨happlied, hcall⟩
  · rw [hcall, hkept]
    rfl
  · rw [hcall, happlied]
    rfl

/-- **A rebuild leaves routing in step with the stores exactly when it is timely.** -/
theorem inStep_rebuildTargetsFromDb_iff {g : Gateway} {models : List Model}
    {endpoints : List ModelEndpoint} {onEmpty : OnEmpty} :
    InStep registry stores (g.rebuildTargetsFromDb registry models endpoints onEmpty).1.targets ↔
      Timely registry stores g.targets (buildRows registry models endpoints) onEmpty := by
  rw [Gateway.targets_rebuildTargetsFromDb, Timely, inStep_iff]
  cases Gateway.keepsPrevious (buildRows registry models endpoints) onEmpty with
  | true => rfl
  | false =>
    rw [if_neg Bool.false_ne_true, if_neg Bool.false_ne_true, targetIds_newTargets]

end InStep

/-! ### Calls at rest -/

section Quiet

variable {calls : List AdminCall} {j : ℕ} {call call' : AdminCall}

theorem not_quiet_set (hj : calls[j]? = some call) (h : call'.Pending) :
    ¬ Quiet (calls.set j call') := fun hquiet ↦
  hquiet call' (List.mem_set (List.getElem?_eq_some_iff.1 hj).1 call') h

/-- A call that had nothing to rebuild leaves the others as quiet as they were. -/
theorem quiet_of_set (hj : calls[j]? = some call) (h : ¬ call.Pending)
    (hquiet : Quiet (calls.set j call')) : Quiet calls := by
  intro c hc
  obtain ⟨i, hi, rfl⟩ := List.mem_iff_getElem.1 hc
  rcases eq_or_ne j i with rfl | hne
  · obtain ⟨_, rfl⟩ := List.getElem?_eq_some_iff.1 hj
    exact h
  · refine hquiet _ (List.mem_iff_getElem.2 ⟨i, ?_, List.getElem_set_ne hne _⟩)
    rwa [List.length_set]

end Quiet

namespace AdminRun

variable {registry : ProviderRegistry} {regexNew : String → Option Regex} {s s' : AdminRun} {j : ℕ}

/-- A configuration change that fails changes nothing, and one that succeeds has yet to rebuild. -/
theorem inStep_applied (hinv : Quiet s.calls → InStep registry s.stores s.gateway.targets)
    {call : AdminCall} (hj : s.calls[j]? = some call) (hcall : ¬ call.Pending)
    {result : Gateway × Except GatewayError Unit}
    (herror : ∀ e, result.2 = .error e → result.1 = s.gateway)
    (hquiet : Quiet (s.applied j result).calls) :
    InStep registry (s.applied j result).stores (s.applied j result).gateway.targets := by
  obtain ⟨gateway, applied⟩ := result
  cases applied with
  | ok _ => exact absurd hquiet (not_quiet_set hj trivial)
  | error e =>
    obtain rfl := herror e rfl
    exact hinv (quiet_of_set hj hcall hquiet)

/-- **The step.** Where every quiet state so far is in step, a step to a quiet state leaves it so
exactly when it is orderly. -/
theorem inStep_iff_orderly (hinv : Quiet s.calls → InStep registry s.stores s.gateway.targets)
    {op : AdminOp} (hstep : s.step? registry regexNew op = some s') (hquiet : Quiet s'.calls) :
    InStep registry s'.stores s'.gateway.targets ↔ s.Orderly registry op := by
  cases op with
  | request request =>
    obtain rfl := Option.some.inj hstep
    exact iff_of_true (hinv fun call hcall ↦ hquiet call (List.mem_append_left _ hcall)) trivial
  | advance j =>
    obtain ⟨call, hj, hstep⟩ := Option.bind_eq_some_iff.1 hstep
    have horderly : s.Orderly registry (.advance j) ↔ s.OrderlyCall registry j call := by
      simp only [Orderly, hj, Option.mem_some_iff, forall_eq']
    rw [horderly]
    -- only a configuration change that fails and the rebuild itself lead to a quiet state
    cases call with
    | requested request =>
      refine iff_of_true ?_ trivial
      cases request with
      | mutate change =>
        obtain rfl := Option.some.inj hstep
        exact absurd hquiet (not_quiet_set hj trivial)
      | reload config =>
        obtain rfl := Option.some.inj hstep
        exact inStep_applied hinv hj not_false (fun e ↦ Gateway.applyAndRecord_error) hquiet
      | rollback version =>
        obtain rfl := Option.some.inj hstep
        exact inStep_applied hinv hj not_false (fun e ↦ Gateway.rollbackConfig_error) hquiet
    | listModels rebuilder =>
      obtain rfl := Option.some.inj hstep
      exact absurd hquiet (not_quiet_set hj trivial)
    | listEndpoints rebuilder models =>
      cases rebuilder with
      | mutation =>
        obtain rfl := Option.some.inj hstep
        exact absurd hquiet (not_quiet_set hj trivial)
      | config =>
        obtain rfl := Option.some.inj hstep
        exact absurd hquiet (not_quiet_set hj trivial)
    | readOwner models endpoints =>
      obtain rfl := Option.some.inj hstep
      exact absurd hquiet (not_quiet_set hj trivial)
    | rebuild models endpoints onEmpty =>
      obtain rfl := Option.some.inj hstep
      exact inStep_rebuildTargetsFromDb_iff.trans ⟨fun h _ ↦ h, fun h ↦ h hquiet⟩
    | returned => cases hstep

/-- A gateway whose configuration file names no endpoint boots in step with the stores. -/
theorem inStep_boot {config : Config} (hids : ∀ target ∈ config.targets, target.id = none)
    (envClients : KeyMap String ProviderClient) (stores : ModelStores) :
    InStep registry stores (boot registry regexNew config envClients stores).gateway.targets := by
  refine inStep_rebuildTargetsFromDb_iff.2 ?_
  have hlive : targetIds config.targets = [] := List.filterMap_eq_nil_iff.2 hids
  rw [Timely]
  cases hkeep : Gateway.keepsPrevious (buildRows registry stores.models stores.endpoints)
      .keepPrevious with
  | true =>
    -- nothing was built: the targets of the file stay, and they name no endpoint
    have hrows : stores.rows registry = [] := by
      rw [Gateway.keepsPrevious, Bool.and_eq_true, List.isEmpty_iff] at hkeep
      exact hkeep.1
    rw [if_pos rfl, if_pos hrows]
    intro id hid
    have hnamed : id ∈ targetIds config.targets := hid
    rw [hlive] at hnamed
    cases hnamed
  | false =>
    rw [if_neg Bool.false_ne_true]
    by_cases hrows : stores.rows registry = []
    · rw [if_pos hrows]
      exact fun id hid ↦ stores.enabled_of_mem_activeIds hid
    · rw [if_neg hrows]
      rfl

/-- One model with one endpoint. -/
def oneEndpoint (enabled : Bool) : ModelStores where
  models := [⟨"m", "claude", true⟩]
  endpoints := [⟨"ep-1", "m", "anthropic", none, some "key", 1, enabled⟩]

/-- Toggle the endpoint. -/
def toggle (enabled : Bool) : AdminOp := .request (.mutate fun _ ↦ oneEndpoint enabled)

/-- The runs over those stores, with the registry the source builds. -/
def toggleRuns : TransitionSystem AdminRun AdminOp := runs buildProviderRegistry fun _ ↦ none

/-- The start of such a run, with the endpoint disabled. -/
def toggleBoot : AdminRun :=
  boot buildProviderRegistry (fun _ ↦ none) .default .empty (oneEndpoint false)

end AdminRun

end Himadri
