import Himadri.Core.IpAddr
import Himadri.Plugins.LimiterStore
import Himadri.Plugins.Pipeline
import Himadri.Transition.GetOrCreate

/-!
# The rate-limit plugin

`RateLimitPlugin` limits the requests of the process, of an API key, of a user and of a remote
address, each only where its limit is configured. The stores behind the last three live in a
registry of the process under the scope and the id of the store (`stores_shared`); the limit of the
process is the plugin's own.

The checks run in this order, and each counts the request before the next looks at it: what
`execute` does is told apart into `Grants`, whether a check passes, and the state after the checks
that were made (`execute_eq`).
-/

namespace Himadri

/-- What a limit is kept by. -/
inductive LimitScope
  | key
  | user
  | ip
  deriving DecidableEq

/-- The order of the checks. -/
def LimitScope.inOrder : List LimitScope := [.key, .user, .ip]

/-- The scope's part in the name of its store. -/
def LimitScope.name : LimitScope → String
  | .key => "key"
  | .user => "user"
  | .ip => "ip"

/-- The refusal of the scope's limit. -/
def LimitScope.refusal : LimitScope → String
  | .key => "per-key rate limit exceeded"
  | .user => "per-user rate limit exceeded"
  | .ip => "per-IP rate limit exceeded"

namespace RateLimitPlugin

/-- `RateLimitConfig` of the plugin. -/
structure RateLimitConfig where
  storeId : Option String
  requestsPerSecond : Option ℕ
  keyRpm : Option ℕ
  userRpm : Option ℕ
  ipRpm : Option ℕ
  maxKeys : Option ℕ

namespace RateLimitConfig

/-- `RateLimitConfig::default`. -/
def default : RateLimitConfig := ⟨none, none, none, none, none, none⟩

/-- `DEFAULT_MAX_KEYS`. -/
def defaultMaxKeys : ℕ := 100000

variable (config : RateLimitConfig)

/-- The scope's limit for a minute. -/
def rpm : LimitScope → Option ℕ
  | .key => config.keyRpm
  | .user => config.userRpm
  | .ip => config.ipRpm

/-- The id of the plugin's stores. -/
def effectiveId : String := config.storeId.getD "default"

/-- The name of a store in the registry. -/
def storeName (scope : LimitScope) (storeId : String) : String := scope.name ++ "-" ++ storeId

/-- The call of `get_or_create_store` for a scope: the name, and the store it would build. -/
def makeStore (hash : String → ℕ) (scope : LimitScope) : Option (String × RateLimiterStore) :=
  (config.rpm scope).map fun rpm ↦
    (storeName scope config.effectiveId,
      .new rpm (.fromSecs 60) (config.maxKeys.getD defaultMaxKeys) hash)

/-! ### Stores in the registry -/

/-- The name of a store tells its scope and its id. -/
theorem storeName_inj {scope scope' : LimitScope} {id id' : String} :
    storeName scope id = storeName scope' id' ↔ scope = scope' ∧ id = id' := by
  constructor
  · intro h
    have hlist := congrArg String.toList h
    simp only [storeName, String.toList_append] at hlist
    have hscope : scope = scope' := by
      rcases scope <;> rcases scope' <;>
        first
          | rfl
          | (refine absurd (congrArg List.head? hlist) ?_
             simp [LimitScope.name])
    subst hscope
    exact ⟨rfl, String.toList_inj.1 (List.append_cancel_left hlist)⟩
  · rintro ⟨rfl, rfl⟩
    rfl

/-- A plugin that is built asks the registry for the store. -/
def Asked (hash : String → ℕ) (name : String) (store : RateLimiterStore) : Prop :=
  ∃ (config : RateLimitConfig) (scope : LimitScope),
    config.makeStore hash scope = some (name, store)

/-- **One store for each scope and id.** However the constructors of the plugins fall together, two
of them share a store exactly when they ask for one scope under one id, and the parameters of a
store are those of one configuration that names it. -/
theorem stores_shared {hash : String → ℕ} {s : GetOrCreate.Run String RateLimiterStore}
    (hs : (GetOrCreate.Run.runs.guard (GetOrCreate.Run.Proposes (Asked hash))).Reachable s) :
    (∀ scope scope' id id' a a', (storeName scope id, a) ∈ s.answers →
        (storeName scope' id', a') ∈ s.answers → (a = a' ↔ scope = scope' ∧ id = id')) ∧
      ∀ scope id a, (storeName scope id, a) ∈ s.answers →
        ∃ (config : RateLimitConfig) (store : RateLimiterStore),
          s.cells[a]? = some (storeName scope id, store) ∧ config.effectiveId = id ∧
          config.rpm scope = some store.rate ∧
          store = .new store.rate (.fromSecs 60) (config.maxKeys.getD defaultMaxKeys) hash := by
  constructor
  · intro scope scope' id id' a a' h h'
    rw [GetOrCreate.Run.answers_iff hs.of_guard h h', storeName_inj]
  · intro scope id a h
    obtain ⟨store, hcell⟩ := GetOrCreate.Run.cell_of_answer hs.of_guard h
    obtain ⟨config, scope', hmake⟩ :=
      (GetOrCreate.Run.proposed hs).1 _ (List.mem_of_getElem? hcell)
    obtain ⟨rpm, hrpm, heq⟩ := Option.map_eq_some_iff.1 hmake
    obtain ⟨hname, hstore⟩ := Prod.mk.inj heq
    obtain ⟨rfl, hid⟩ := storeName_inj.1 hname
    obtain rfl : _ = store := hstore
    exact ⟨config, _, hcell, hid, hrpm, rfl⟩

/-- A limit of sixty, or of thirty, for each key. -/
def sixtyAndThirty : RateLimitConfig × RateLimitConfig :=
  ({ default with keyRpm := some 60 }, { default with keyRpm := some 30 })

/-- Two plugins are built at the same time, and both find no store; the one that enters last gets
the other's, with a limit that is not its own. -/
theorem stores_shared_race : ∃ s : GetOrCreate.Run String RateLimiterStore,
    s.answers = [(storeName .key "default", 0), (storeName .key "default", 0)] ∧
      s.cells.map (·.2.rate) = [30] ∧
      (∀ scope scope' id id' a a', (storeName scope id, a) ∈ s.answers →
        (storeName scope' id', a') ∈ s.answers → (a = a' ↔ scope = scope' ∧ id = id')) ∧
      ∀ scope id a, (storeName scope id, a) ∈ s.answers →
        ∃ (config : RateLimitConfig) (store : RateLimiterStore),
          s.cells[a]? = some (storeName scope id, store) ∧ config.effectiveId = id ∧
          config.rpm scope = some store.rate ∧
          store = .new store.rate (.fromSecs 60) (config.maxKeys.getD defaultMaxKeys)
            String.length := by
  have hfirst : Asked String.length (storeName .key "default")
      (.new 60 (.fromSecs 60) defaultMaxKeys String.length) := ⟨sixtyAndThirty.1, .key, rfl⟩
  have hsecond : Asked String.length (storeName .key "default")
      (.new 30 (.fromSecs 60) defaultMaxKeys String.length) := ⟨sixtyAndThirty.2, .key, rfl⟩
  let name := storeName .key "default"
  let stores := fun rate ↦ RateLimiterStore.new rate (.fromSecs 60) defaultMaxKeys String.length
  let T := (GetOrCreate.Run.runs (κ := String) (α := RateLimiterStore)).guard
    (GetOrCreate.Run.Proposes (Asked String.length))
  have hstart : T.Reachable .start := .init rfl
  have hone : T.Reachable ⟨[], .empty, [(name, stores 60)], []⟩ :=
    hstart.step (l := .look name (stores 60)) ⟨rfl, hfirst⟩
  have htwo : T.Reachable ⟨[], .empty, [(name, stores 60), (name, stores 30)], []⟩ :=
    hone.step (l := .look name (stores 30)) ⟨rfl, hsecond⟩
  have hbuilt : T.Reachable ⟨[(name, stores 30)], KeyMap.empty.insert name 0, [(name, stores 60)],
      [(name, 0)]⟩ := htwo.step (l := .enter 1) ⟨rfl, trivial⟩
  have hshared : T.Reachable ⟨[(name, stores 30)], KeyMap.empty.insert name 0, [],
      [(name, 0), (name, 0)]⟩ := hbuilt.step (l := .enter 0) ⟨rfl, trivial⟩
  exact ⟨_, rfl, rfl, stores_shared hshared⟩

end RateLimitConfig

end RateLimitPlugin

/-! ### The plugin -/

/-- `RateLimitPlugin`, apart from the states of its counters. -/
structure RateLimitPlugin where
  globalLimiter : Option FixedWindowCounter
  store : LimitScope → Option RateLimiterStore

/-- The word of the limiter of the process, and the shards of the stores. -/
structure LimiterState where
  word : ℕ
  shards : LimitScope → ℕ → LimiterShard

/-- What the checks of a request meet: what each reads of the clock, and the key that is drawn from
a full shard. -/
structure LimiterEnv where
  globalUs : ℕ
  nowUs : LimitScope → ℕ
  victim : LimitScope → String

/-- The shards of a scope's store replaced. -/
def LimiterState.setShards (state : LimiterState) (scope : LimitScope)
    (shards : ℕ → LimiterShard) : LimiterState :=
  { state with shards := Function.update state.shards scope shards }

namespace RateLimitPlugin

/-- `RateLimitPlugin::new`, where nobody else builds a store of its names. -/
def new (config : RateLimitConfig) (hash : String → ℕ) : RateLimitPlugin where
  globalLimiter := config.requestsPerSecond.map fun rps ↦ .new rps (.fromSecs 1)
  store scope := (config.makeStore hash scope).map Prod.snd

/-- `rejected`. -/
def rejected (reason : String) : PluginError := .rejected "rate-limit" reason (.rateLimited 60)

/-- A string of the metadata. -/
def metadataString (ctx : PluginContext) (name : String) : Option String :=
  match ctx.metadata.get name with
  | some (.string s) => some s
  | _ => none

/-- `get_api_key`. -/
def getApiKey (ctx : PluginContext) : Option String :=
  match (metadataString ctx "api_key").filter (!·.isEmpty) with
  | some key => some key
  | none => ctx.auth.bind fun auth ↦ auth.keyId <|> auth.userId

/-- `get_user_id`. -/
def getUserId (ctx : PluginContext) : Option String :=
  metadataString ctx "user_id" <|> ctx.auth.bind (·.keyId)

/-- What a request is counted under; an address only where it is one. -/
def identity (ctx : PluginContext) : LimitScope → Option String
  | .key => getApiKey ctx
  | .user => getUserId ctx
  | .ip => ctx.remoteIp.filter fun ip ↦ (IpAddr.parse ip.toList).isSome

variable (plugin : RateLimitPlugin)

/-- The check of the process. -/
def checkGlobal (state : LimiterState) (env : LimiterEnv) : LimiterState × Except PluginError Unit :=
  match plugin.globalLimiter with
  | none => (state, .ok ())
  | some c =>
    let (word, allowed) := c.allow (c.windowIndex env.globalUs) state.word
    ({ state with word }, if allowed then .ok () else .error (rejected "rate limit exceeded"))

/-- The check of a scope. -/
def checkScope (scope : LimitScope) (state : LimiterState) (env : LimiterEnv)
    (ctx : PluginContext) : LimiterState × Except PluginError Unit :=
  match plugin.store scope, identity ctx scope with
  | some store, some id =>
    let (shards, allowed) := store.allow (state.shards scope) id
      (store.counter.windowIndex (env.nowUs scope)) (env.victim scope)
    (state.setShards scope shards,
      if allowed then .ok () else .error (rejected scope.refusal))
  | _, _ => (state, .ok ())

/-- One check after another, until one refuses. -/
def checkScopes (env : LimiterEnv) (ctx : PluginContext) :
    List LimitScope → LimiterState → LimiterState × Except PluginError Unit
  | [], state => (state, .ok ())
  | scope :: scopes, state =>
    match plugin.checkScope scope state env ctx with
    | (state, .ok ()) => checkScopes env ctx scopes state
    | (state, .error e) => (state, .error e)

/-- `execute`. -/
def execute (state : LimiterState) (env : LimiterEnv) (ctx : PluginContext) :
    LimiterState × Except PluginError Unit :=
  match plugin.checkGlobal state env with
  | (state, .ok ()) => plugin.checkScopes env ctx LimitScope.inOrder state
  | (state, .error e) => (state, .error e)

/-! ### What the checks do -/

/-- The window of a scope's check. -/
def window (store : RateLimiterStore) (scope : LimitScope) (env : LimiterEnv) : ℕ :=
  store.counter.windowIndex (env.nowUs scope)

/-- The call of the scope's store that a request makes, if it makes one. -/
def call (scope : LimitScope) (state : LimiterState) (env : LimiterEnv) (ctx : PluginContext) :
    Option ((ℕ → LimiterShard) × Bool) :=
  (plugin.store scope).bind fun store ↦ (identity ctx scope).map fun id ↦
    store.allow (state.shards scope) id (window store scope env) (env.victim scope)

/-- The check of a scope passes. -/
def grants (scope : LimitScope) (state : LimiterState) (env : LimiterEnv) (ctx : PluginContext) :
    Bool := (plugin.call scope state env ctx).all Prod.snd

/-- The check of the process passes. -/
def grantsGlobal (state : LimiterState) (env : LimiterEnv) : Bool :=
  plugin.globalLimiter.all fun c ↦ (c.allow (c.windowIndex env.globalUs) state.word).2

/-- The scopes that are checked before a scope. -/
def before (scope : LimitScope) : List LimitScope := LimitScope.inOrder.takeWhile (· ≠ scope)

/-- The request gets as far as the check of the scope. -/
def reaches (scope : LimitScope) (state : LimiterState) (env : LimiterEnv) (ctx : PluginContext) :
    Bool :=
  plugin.grantsGlobal state env && (before scope).all fun scope ↦ plugin.grants scope state env ctx

/-- The shards of a scope's store after its check. -/
def after (scope : LimitScope) (state : LimiterState) (env : LimiterEnv) (ctx : PluginContext) :
    ℕ → LimiterShard :=
  ((plugin.call scope state env ctx).map Prod.fst).getD (state.shards scope)

theorem checkScope_eq (scope : LimitScope) (state : LimiterState) (env : LimiterEnv)
    (ctx : PluginContext) :
    plugin.checkScope scope state env ctx =
      (state.setShards scope (plugin.after scope state env ctx),
        if plugin.grants scope state env ctx then .ok () else .error (rejected scope.refusal)) := by
  rcases hstore : plugin.store scope with - | store
  · simp [checkScope, grants, after, call, LimiterState.setShards, hstore]
  · rcases hid : identity ctx scope with - | id
    · simp [checkScope, grants, after, call, LimiterState.setShards, hstore, hid]
    · simp [checkScope, grants, after, call, hstore, hid, window]

theorem checkGlobal_eq (state : LimiterState) (env : LimiterEnv) : ∃ word,
    plugin.checkGlobal state env = ({ state with word },
      if plugin.grantsGlobal state env then .ok () else .error (rejected "rate limit exceeded")) := by
  rcases hglobal : plugin.globalLimiter with - | c
  · exact ⟨state.word, by simp [checkGlobal, grantsGlobal, hglobal]⟩
  · exact ⟨_, by simp only [checkGlobal, grantsGlobal, hglobal, Option.all_some]; rfl⟩

/-- A check of another scope changes nothing for a scope. -/
theorem call_setShards {scope scope' : LimitScope} (h : scope' ≠ scope) (state : LimiterState)
    (shards : ℕ → LimiterShard) (env : LimiterEnv) (ctx : PluginContext) :
    plugin.call scope' (state.setShards scope shards) env ctx =
      plugin.call scope' state env ctx := by
  simp [call, LimiterState.setShards, Function.update_of_ne h]

/-- The checks of some scopes: each is made exactly when those before it pass, and what it does
depends on its own store alone. -/
theorem checkScopes_spec (env : LimiterEnv) (ctx : PluginContext) {scopes : List LimitScope}
    (hnodup : scopes.Nodup) (state : LimiterState) :
    ((plugin.checkScopes env ctx scopes state).2 = .ok () ↔
        ∀ scope ∈ scopes, plugin.grants scope state env ctx = true) ∧
      ∀ scope, (plugin.checkScopes env ctx scopes state).1.shards scope =
        if scope ∈ scopes ∧ ∀ scope' ∈ scopes.takeWhile (· ≠ scope),
            plugin.grants scope' state env ctx = true
        then plugin.after scope state env ctx else state.shards scope := by
  induction scopes generalizing state with
  | nil => exact ⟨by simp [checkScopes], fun scope ↦ by simp [checkScopes]⟩
  | cons first rest ih =>
    obtain ⟨hfirst, hrest⟩ := List.nodup_cons.1 hnodup
    rw [checkScopes, plugin.checkScope_eq first state env ctx]
    rcases hgrants : plugin.grants first state env ctx with - | -
    · refine ⟨by simp [hgrants], fun scope ↦ ?_⟩
      rcases eq_or_ne scope first with rfl | hne
      · simp [LimiterState.setShards]
      · simp [LimiterState.setShards, hne, hne.symm, hgrants]
    · let state' := state.setShards first (plugin.after first state env ctx)
      obtain ⟨hok, hshards⟩ := ih hrest state'
      -- no other check sees what the first one did
      have hcall : ∀ scope ≠ first, plugin.call scope state' env ctx =
          plugin.call scope state env ctx :=
        fun scope hne ↦ plugin.call_setShards hne state _ env ctx
      have hgrants' : ∀ scope ∈ rest, plugin.grants scope state' env ctx =
          plugin.grants scope state env ctx := fun scope hmem ↦ by
        rw [grants, grants, hcall scope fun heq ↦ hfirst (heq ▸ hmem)]
      refine ⟨?_, fun scope ↦ ?_⟩
      · show (plugin.checkScopes env ctx rest state').2 = .ok () ↔ _
        rw [hok, List.forall_mem_cons, and_iff_right hgrants]
        exact forall₂_congr fun scope hmem ↦ by rw [hgrants' scope hmem]
      · show (plugin.checkScopes env ctx rest state').1.shards scope = _
        rw [hshards]
        rcases eq_or_ne scope first with rfl | hne
        · simp [hfirst, state', LimiterState.setShards]
        · have hkept : state'.shards scope = state.shards scope := Function.update_of_ne hne ..
          have hafter : plugin.after scope state' env ctx = plugin.after scope state env ctx := by
            rw [after, after, hcall scope hne, hkept]
          have htake : (first :: rest).takeWhile (· ≠ scope) =
              first :: rest.takeWhile (· ≠ scope) :=
            List.takeWhile_cons_of_pos (decide_eq_true (Ne.symm hne))
          refine if_congr ?_ hafter hkept
          rw [htake, List.mem_cons, or_iff_right hne, List.forall_mem_cons, and_iff_right hgrants]
          refine and_congr_right fun _ ↦ forall₂_congr fun scope' hmem ↦ ?_
          rw [hgrants' scope' ((List.takeWhile_sublist _).subset hmem)]

/-- What `execute` does. A request passes exactly when every check passes on the state it finds, and
the stores that have counted it are those whose check it reached. -/
theorem execute_eq (state : LimiterState) (env : LimiterEnv) (ctx : PluginContext) :
    ((plugin.execute state env ctx).2 = .ok () ↔ plugin.grantsGlobal state env = true ∧
        ∀ scope, plugin.grants scope state env ctx = true) ∧
      ∀ scope, (plugin.execute state env ctx).1.shards scope =
        if plugin.reaches scope state env ctx then plugin.after scope state env ctx
        else state.shards scope := by
  have hall : ∀ scope, scope ∈ LimitScope.inOrder := fun scope ↦ by
    rcases scope <;> decide
  obtain ⟨word, hglobal⟩ := plugin.checkGlobal_eq state env
  rw [execute, hglobal]
  rcases hgrants : plugin.grantsGlobal state env with - | -
  · exact ⟨by simp, fun scope ↦ by simp [reaches, hgrants]⟩
  · obtain ⟨hok, hshards⟩ :=
      plugin.checkScopes_spec env ctx (show LimitScope.inOrder.Nodup by decide) { state with word }
    refine ⟨?_, fun scope ↦ ?_⟩
    · show (plugin.checkScopes env ctx LimitScope.inOrder { state with word }).2 = .ok () ↔ _
      rw [hok, and_iff_right rfl]
      exact ⟨fun h scope ↦ h scope (hall scope), fun h scope _ ↦ h scope⟩
    · show (plugin.checkScopes env ctx LimitScope.inOrder { state with word }).1.shards scope = _
      rw [hshards]
      refine if_congr ?_ rfl rfl
      rw [reaches, hgrants, Bool.true_and, List.all_eq_true, and_iff_right (hall scope)]
      exact Iff.rfl

end RateLimitPlugin

/-! ### One request after another -/

/-- The plugin's counters, the requests it let through with what their checks met, and for each
scope what its store granted and which counters it dropped. -/
structure LimitRun (plugin : RateLimitPlugin) where
  clock : ℕ
  state : LimiterState
  accepted : List (PluginContext × LimiterEnv)
  granted : LimitScope → Multiset (String × ℕ)
  dropped : LimitScope → Multiset String

namespace LimitRun

open RateLimitPlugin

variable {plugin : RateLimitPlugin}

/-- A plugin that has seen no request. -/
def start (plugin : RateLimitPlugin) : LimitRun plugin where
  clock := 0
  state := ⟨0, fun _ _ ↦ ∅⟩
  accepted := []
  granted _ := 0
  dropped _ := 0

section Step

variable (s : LimitRun plugin)

/-- What the store of a scope grants a request, and which counters it drops for it. -/
def toll (scope : LimitScope) (ctx : PluginContext) (env : LimiterEnv) :
    Multiset (String × ℕ) × Multiset String :=
  match plugin.store scope, identity ctx scope with
  | some store, some id =>
    if plugin.reaches scope s.state env ctx then
      (if plugin.grants scope s.state env ctx then {(id, window store scope env)} else 0,
        store.evicted (s.state.shards scope (store.shardIndex id)) id (env.victim scope))
    else (0, 0)
  | _, _ => (0, 0)

/-- A request, whose checks read the clock after those before it. -/
def step? (request : PluginContext × LimiterEnv) : Option (LimitRun plugin) :=
  if LimitScope.inOrder.all fun scope ↦ s.clock ≤ request.2.nowUs scope then
    let outcome := plugin.execute s.state request.2 request.1
    some
      { clock := LimitScope.inOrder.foldl (fun clock scope ↦ max clock (request.2.nowUs scope)) 0
        state := outcome.1
        accepted := if outcome.2 = .ok () then request :: s.accepted else s.accepted
        granted scope := (s.toll scope request.1 request.2).1 + s.granted scope
        dropped scope := (s.toll scope request.1 request.2).2 + s.dropped scope }
  else none

/-- The window index of no check has overflowed its 32 bits. -/
def Early (_ : LimitRun plugin) (request : PluginContext × LimiterEnv) : Prop :=
  ∀ scope, ∀ store ∈ plugin.store scope,
    request.2.nowUs scope / store.counter.windowUs ≤ countMask

/-- How many requests of an identity were let through in a window. -/
def acceptedIn (store : RateLimiterStore) (scope : LimitScope) (id : String) (k : ℕ) : ℕ :=
  s.accepted.countP fun request ↦
    identity request.1 scope = some id ∧ window store scope request.2 = k

end Step

/-- Any requests. -/
def runs (plugin : RateLimitPlugin) :
    TransitionSystem (LimitRun plugin) (PluginContext × LimiterEnv) :=
  .ofPartial (· = start plugin) step?

/-- The store of a scope keeps its account, none of its windows is to come, and it granted every
request that was let through. -/
structure Kept (s : LimitRun plugin) (scope : LimitScope) (store : RateLimiterStore) : Prop where
  account :
    LimiterRun.Accounted store (s.state.shards scope) (s.granted scope) (s.dropped scope)
  timely : ∀ i key, ∀ packed ∈ (s.state.shards scope i).lookup key,
    windowOf packed ≤ s.clock / store.counter.windowUs
  covered : ∀ id k, s.acceptedIn store scope id k ≤ (s.granted scope).count (id, k)

variable {s s' : LimitRun plugin} {request : PluginContext × LimiterEnv}

/-- The checks of a step lie between the clocks before and after it. -/
theorem clock_le (h : s.step? request = some s') (scope : LimitScope) :
    s.clock ≤ request.2.nowUs scope ∧ request.2.nowUs scope ≤ s'.clock := by
  obtain ⟨hclock, hs'⟩ := Option.ite_none_right_eq_some.1 h
  obtain rfl := Option.some.inj hs'
  have hall : ∀ scope ∈ LimitScope.inOrder, s.clock ≤ request.2.nowUs scope := by simpa using hclock
  refine ⟨hall scope (by rcases scope <;> decide), ?_⟩
  show request.2.nowUs scope ≤
    LimitScope.inOrder.foldl (fun clock scope ↦ max clock (request.2.nowUs scope)) 0
  simp only [LimitScope.inOrder, List.foldl_cons, List.foldl_nil]
  rcases scope <;> omega

theorem windowIndex_of_early {c : FixedWindowCounter} {nowUs : ℕ}
    (h : nowUs / c.windowUs ≤ countMask) : c.windowIndex nowUs = nowUs / c.windowUs :=
  (countOf_eq_mod _).trans (Nat.mod_eq_of_lt (Nat.lt_succ_of_le h))

/-- A request is let through only by checks that it reaches. -/
theorem passed_of_ok {state : LimiterState} {env : LimiterEnv} {ctx : PluginContext}
    (h : (plugin.execute state env ctx).2 = .ok ()) (scope : LimitScope) :
    plugin.reaches scope state env ctx = true ∧ plugin.grants scope state env ctx = true := by
  obtain ⟨hglobal, hscopes⟩ := (plugin.execute_eq state env ctx).1.1 h
  refine ⟨?_, hscopes scope⟩
  rw [reaches, hglobal, Bool.true_and, List.all_eq_true]
  exact fun scope' _ ↦ hscopes scope'

/-- What a step does to the store of a scope: it is not called, and no request of an identity of the
scope is let through, or it is called for one. -/
theorem step_scope (hstep : s.step? request = some s') {scope : LimitScope}
    {store : RateLimiterStore} (hstore : plugin.store scope = some store) :
    (s'.state.shards scope = s.state.shards scope ∧ s'.granted scope = s.granted scope ∧
        s'.dropped scope = s.dropped scope ∧
        ∀ id k, s'.acceptedIn store scope id k = s.acceptedIn store scope id k) ∨
      ∃ id call, identity request.1 scope = some id ∧
        call = store.allow (s.state.shards scope) id (window store scope request.2)
          (request.2.victim scope) ∧
        s'.state.shards scope = call.1 ∧
        s'.granted scope =
          (if call.2 then {(id, window store scope request.2)} else 0) + s.granted scope ∧
        s'.dropped scope = store.evicted (s.state.shards scope (store.shardIndex id)) id
          (request.2.victim scope) + s.dropped scope ∧
        (s'.accepted = s.accepted ∨ call.2 = true ∧ s'.accepted = request :: s.accepted) := by
  obtain ⟨-, hs'⟩ := Option.ite_none_right_eq_some.1 hstep
  obtain rfl := Option.some.inj hs'
  have hshards := (plugin.execute_eq s.state request.2 request.1).2 scope
  have hpassed : (plugin.execute s.state request.2 request.1).2 = .ok () → _ :=
    fun h ↦ passed_of_ok h scope
  rcases hid : identity request.1 scope with - | id
  · have hcall : plugin.call scope s.state request.2 request.1 = none := by
      rw [call, hstore, hid]
      rfl
    have htoll : s.toll scope request.1 request.2 = (0, 0) := by
      simp only [toll, hstore, hid]
    have hsame : (plugin.execute s.state request.2 request.1).1.shards scope =
        s.state.shards scope := by
      rw [hshards, after, hcall, Option.map_none, Option.getD_none, ite_self]
    refine .inl ⟨hsame, by simp only [htoll, zero_add], by simp only [htoll, zero_add],
      fun id k ↦ ?_⟩
    simp only [acceptedIn]
    split_ifs
    · simp [hid]
    · rfl
  · rcases hreaches : plugin.reaches scope s.state request.2 request.1 with - | -
    · have htoll : s.toll scope request.1 request.2 = (0, 0) := by
        simp only [toll, hstore, hid, hreaches, Bool.false_eq_true, if_false]
      have hrefused : (plugin.execute s.state request.2 request.1).2 ≠ .ok () := fun hok ↦ by
        have htrue := (hpassed hok).1
        rw [hreaches] at htrue
        cases htrue
      rw [hreaches, if_neg Bool.false_ne_true] at hshards
      refine .inl ⟨hshards, by simp only [htoll, zero_add], by simp only [htoll, zero_add],
        fun id k ↦ ?_⟩
      simp only [acceptedIn, if_neg hrefused]
    · have hcall : plugin.call scope s.state request.2 request.1 =
          some (store.allow (s.state.shards scope) id (window store scope request.2)
            (request.2.victim scope)) := by
        rw [call, hstore, hid]
        rfl
      have hgrants : plugin.grants scope s.state request.2 request.1 =
          (store.allow (s.state.shards scope) id (window store scope request.2)
            (request.2.victim scope)).2 := by
        rw [RateLimitPlugin.grants, hcall, Option.all_some]
      rw [hreaches, if_pos rfl, after, hcall] at hshards
      refine .inr ⟨id, _, rfl, rfl, hshards, ?_, ?_, ?_⟩
      · simp only [toll, hstore, hid, hreaches, if_true, hgrants]
      · simp only [toll, hstore, hid, hreaches, if_true]
      · by_cases hok : (plugin.execute s.state request.2 request.1).2 = .ok ()
        · exact .inr ⟨hgrants ▸ (hpassed hok).2, if_pos hok⟩
        · exact .inl (if_neg hok)

theorem Kept.step {scope : LimitScope} {store : RateLimiterStore}
    (hstore : plugin.store scope = some store) (h : s.Kept scope store)
    (hearly : s.Early request) (hstep : s.step? request = some s') : s'.Kept scope store := by
  obtain ⟨hbefore, hafter⟩ := clock_le hstep scope
  have htimely : ∀ i key, ∀ packed ∈ (s.state.shards scope i).lookup key,
      windowOf packed ≤ request.2.nowUs scope / store.counter.windowUs := fun i key packed hmem ↦
    (h.timely i key packed hmem).trans (Nat.div_le_div_right hbefore)
  have hlater : request.2.nowUs scope / store.counter.windowUs ≤
      s'.clock / store.counter.windowUs := Nat.div_le_div_right hafter
  have hwindow : window store scope request.2 =
      request.2.nowUs scope / store.counter.windowUs :=
    windowIndex_of_early (hearly scope store hstore)
  obtain ⟨hshards, hgranted, hdropped, haccepted⟩ |
    ⟨id, call, hid, hcall, hshards, hgranted, hdropped, haccepted⟩ := step_scope hstep hstore
  · refine ⟨?_, fun i key packed hmem ↦ ?_, fun id k ↦ ?_⟩
    · rw [hshards, hgranted, hdropped]
      exact h.account
    · rw [hshards] at hmem
      exact (htimely i key packed hmem).trans hlater
    · rw [haccepted, hgranted]
      exact h.covered id k
  · refine ⟨?_, fun i key packed hmem ↦ ?_, fun id' k ↦ ?_⟩
    · rw [hshards, hgranted, hdropped, hcall]
      exact h.account.allow (fun packed hmem ↦ hwindow ▸ htimely _ _ packed hmem) _
    · rw [hshards, hcall, RateLimiterStore.allow_fst] at hmem
      rcases eq_or_ne i (store.shardIndex id) with rfl | hne
      · rw [Function.update_self] at hmem
        exact (LimiterRun.windowOf_enter_le (htimely _) hwindow.le key packed hmem).trans hlater
      · rw [Function.update_of_ne hne] at hmem
        exact (htimely i key packed hmem).trans hlater
    · have hcovered := h.covered id' k
      rw [hgranted, Multiset.count_add, LimiterRun.count_grant]
      rcases haccepted with heq | ⟨hallowed, heq⟩
      · rw [acceptedIn, heq]
        exact hcovered.trans (Nat.le_add_left ..)
      · rw [acceptedIn, heq, List.countP_cons, hid, hallowed, Nat.add_comm]
        refine Nat.add_le_add (le_of_eq (if_congr ?_ rfl rfl)) hcovered
        rw [decide_eq_true_eq, Option.some_inj, eq_comm (a := id), eq_comm (b := k),
          and_iff_right rfl]

theorem kept_invariant {scope : LimitScope} {store : RateLimiterStore}
    (hstore : plugin.store scope = some store) :
    ((runs plugin).guard Early).Invariant fun s ↦ s.Kept scope store where
  init s hs := by
    rw [show s = start plugin from hs]
    exact ⟨LimiterRun.accounted_start store, fun i key packed hmem ↦ absurd hmem (by simp [start]),
      fun id k ↦ Nat.zero_le _⟩
  step _ _ _ h hstep := h.step hstore hstep.2 hstep.1

/-- **The plugin's limits.** Of the requests that come one after another, the plugin lets through no
more of one key, user or address in a window than the scope's limit, for each life of the counter
behind it. -/
theorem accepted_within_lives {config : RateLimitPlugin.RateLimitConfig} {hash : String → ℕ}
    {s : LimitRun (new config hash)} (hs : ((runs (new config hash)).guard Early).Reachable s)
    {scope : LimitScope} {store : RateLimiterStore}
    (hstore : (new config hash).store scope = some store) (id : String) (k : ℕ) :
    config.rpm scope = some store.rate ∧
      s.acceptedIn store scope id k ≤
        min store.rate countMask * ((s.dropped scope).count id + 1) := by
  have hkept := (kept_invariant hstore).of_reachable hs
  refine ⟨?_, (hkept.covered id k).trans (hkept.account.granted_le_lives id k)⟩
  obtain ⟨p, hmake, rfl⟩ := Option.map_eq_some_iff.1 hstore
  obtain ⟨rpm, hrpm, rfl⟩ := Option.map_eq_some_iff.1 hmake
  exact hrpm

/-- One request of a key in a minute. -/
def onceForKey : RateLimitPlugin.RateLimitConfig :=
  { RateLimitPlugin.RateLimitConfig.default with keyRpm := some 1 }

/-- A request of the key `k`. -/
def byKey : PluginContext × LimiterEnv :=
  (.fromRequest "r" (.ofMessages "m" []) (some { AuthContext.default with keyId := some "k" }),
    ⟨0, fun _ ↦ 0, fun _ ↦ ""⟩)

/-- Of two requests in one minute the first is let through. -/
theorem accepted_within_lives_once :
    ∃ (s : LimitRun (new onceForKey String.length)) (store : RateLimiterStore),
      ((runs (new onceForKey String.length)).guard Early).Reachable s ∧
        s.acceptedIn store .key "k" 0 = 1 ∧ onceForKey.rpm .key = some store.rate ∧
        s.acceptedIn store .key "k" 0 ≤
          min store.rate countMask * ((s.dropped .key).count "k" + 1) := by
  let plugin := new onceForKey String.length
  have hearly : ∀ s : LimitRun plugin, s.Early byKey := fun s scope store hstore ↦ by
    show 0 / store.counter.windowUs ≤ countMask
    rw [Nat.zero_div]
    exact Nat.zero_le _
  have hstore : plugin.store .key =
      some (.new 1 (.fromSecs 60) RateLimitPlugin.RateLimitConfig.defaultMaxKeys
        String.length) := rfl
  obtain ⟨s, hs, hcount⟩ : ∃ s : LimitRun plugin, ((runs plugin).guard Early).Reachable s ∧
      s.acceptedIn (.new 1 (.fromSecs 60) RateLimitPlugin.RateLimitConfig.defaultMaxKeys
        String.length) .key "k" 0 = 1 := by
    have hstart : ((runs plugin).guard Early).Reachable (start plugin) := .init rfl
    have hfirst := hstart.step ⟨rfl, hearly _⟩
    have hsecond := hfirst.step ⟨rfl, hearly _⟩
    exact ⟨_, hsecond, by decide⟩
  exact ⟨s, _, hs, hcount, accepted_within_lives hs hstore "k" 0⟩

end LimitRun

end Himadri
