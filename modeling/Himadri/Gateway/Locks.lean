import Himadri.Transition.Locking
import Mathlib.Data.Prod.Lex

/-!
# The gateway's locks

What each call takes and gives back, in the order of its statements: the four `RwLock`s of `Gateway`
and the shards of its three maps. A guard that the source drops at the end of a scope is released
there, so a call that returns early has done some of its segments whole and the others not at all.

No calls ever wait for one another in a cycle (`gateway_acyclic`). But `Gateway::proxy` awaits its
upstream with the target list and a client still borrowed, and it alone does: a silent upstream is
in nobody's way exactly when no proxied request gets as far as its send (`silent_upstream_iff`).
-/

namespace Himadri

open Locking (Mode Action WellLocked Ordered BareCalls touch sweep)

/-- The locks of `Gateway`; a map has one for each shard. -/
inductive GatewayLock
  | strategy
  | config
  | targets
  | configHistory
  | providers (shard : ℕ)
  | providerKeys (shard : ℕ)
  | circuitBreakers (shard : ℕ)
  deriving DecidableEq

namespace GatewayLock

/-- The documented order `strategy` → `config` → `targets`, and the maps after these. -/
def level : GatewayLock → ℕ
  | strategy => 0
  | config => 1
  | targets => 2
  | configHistory => 3
  | providers _ => 4
  | providerKeys _ => 5
  | circuitBreakers _ => 6

/-- Within a map, the order its shards are visited in. -/
def shard : GatewayLock → ℕ
  | providers shard => shard
  | providerKeys shard => shard
  | circuitBreakers shard => shard
  | _ => 0

/-- The order in which calls take locks. -/
def rank (l : GatewayLock) : ℕ ×ₗ ℕ := toLex (l.level, l.shard)

theorem rank_lt_of_level {l l' : GatewayLock} (h : l.level < l'.level) : l.rank < l'.rank :=
  Prod.Lex.toLex_lt_toLex.2 (.inl h)

theorem isChain_providers (shards : ℕ) :
    ((List.range shards).map providers).IsChain (rank · < rank ·) := by
  refine List.Pairwise.isChain (List.pairwise_map.2 (List.pairwise_lt_range.imp fun h ↦ ?_))
  exact Prod.Lex.toLex_lt_toLex.2 (.inr ⟨rfl, h⟩)

end GatewayLock

open GatewayLock

/-- How far a request gets with one target, in the shards of its client and its key. A key read from
the environment (`none`) takes no lock. -/
inductive AttemptExit
  | circuitOpen
  | providerNotFound (provider : ℕ)
  | apiKey (provider : ℕ)
  | called (provider : ℕ) (providerKey : Option ℕ)

/-- How far `Gateway::proxy` gets. -/
inductive ProxyExit
  | noTargets
  | providerNotFound (provider : ℕ)
  | apiKey (provider : ℕ)
  | invalidMethod (provider : ℕ) (providerKey : Option ℕ)
  | sent (provider : ℕ) (providerKey : Option ℕ)

/-- The read accessors; `configHandle` is also what a plugin does with the live configuration. -/
inductive Accessor
  | getConfig
  | configHandle
  | configHistory
  | dbOwnsRouting
  | listProviders
  | getProvider (shard : ℕ)
  | getApiKey (shard : ℕ)

/-- A call: how often its plugins read the configuration, what its attempts come to, which shards
its inserts and removals fall in, and after how many segments it returns. -/
inductive GatewayCall
  | route (beforeReads : ℕ) (attempts : List (ℕ × AttemptExit)) (afterReads stop : ℕ)
  | routeStream (beforeReads : ℕ) (attempts : List (ℕ × AttemptExit)) (stop : ℕ)
  | embed (attempts : List AttemptExit) (stop : ℕ)
  | proxy (exit : ProxyExit)
  | reloadConfig (stop : ℕ)
  | rollbackConfig (stop : ℕ)
  | rebuildTargetsFromDb (clients keys stale : List ℕ) (stop : ℕ)
  | accessor (accessor : Accessor)

/-- The call is a proxied request that gets as far as its send. -/
def GatewayCall.Sends : GatewayCall → Prop
  | .proxy (.sent _ _) => True
  | _ => False

namespace LockProgram

/-- A stretch of actions between two points a call can return at. -/
abbrev Segment := List (Action GatewayLock)

/-- `prepare_request`: the checks under one guard, then the plugins. -/
def prepareRequest (reads : ℕ) : List Segment :=
  touch config .read :: List.replicate reads (touch config .read)

/-- `filter_targets_by_rbac`. -/
def filterTargetsByRbac : Segment := touch config .read

/-- `select_targets`: the strategy stays locked while it ranks the targets. -/
def selectTargets : List Segment :=
  [[.acquire strategy .read, .acquire targets .read, .release targets, .release strategy],
    filterTargetsByRbac]

/-- `get_api_key`. -/
def getApiKey (providerKey : Option ℕ) : Segment :=
  match providerKey with
  | some shard => touch (providerKeys shard) .read
  | none => []

/-- Client and key lookup, and the request. -/
def attempt : AttemptExit → List Segment
  | .circuitOpen => []
  | .providerNotFound provider => [touch (providers provider) .read]
  | .apiKey provider => [touch (providers provider) .read]
  | .called provider providerKey =>
    [touch (providers provider) .read, getApiKey providerKey, [.call]]

/-- `with_failover`: the latency store once, then for each target its breaker and the attempt. -/
def withFailover (recordLatency : Bool) (attempts : List (ℕ × AttemptExit)) : List Segment :=
  (if recordLatency then [touch strategy .read] else []) ++
    attempts.flatMap fun a ↦ touch (circuitBreakers a.1) .write :: attempt a.2

/-- `apply_config`: the three write locks together, then the breakers shard by shard. -/
def applyConfig (shards : ℕ) : List Segment :=
  [.acquire strategy .write, .acquire config .write, .acquire targets .write, .release strategy,
      .release config, .release targets] ::
    (List.range shards).map fun shard ↦ touch (circuitBreakers shard) .write

/-- `rebuild_targets_from_db`. -/
def rebuildTargetsFromDb (shards : ℕ) (clients keys stale : List ℕ) : List Segment :=
  clients.map (fun shard ↦ touch (providers shard) .write) ++
    keys.map (fun shard ↦ touch (providerKeys shard) .write) ++
    (List.range shards).map (fun shard ↦ touch (providerKeys shard) .write) ++
    [[.acquire config .write, .acquire targets .write, .release targets, .release config]] ++
    (List.range shards).map (fun shard ↦ touch (circuitBreakers shard) .write) ++
    stale.map fun shard ↦ touch (providers shard) .write

/-- `Gateway::proxy`: the guard on the targets and the reference into the clients live to the end of
the function. -/
def proxy : ProxyExit → Segment
  | .noTargets => touch targets .read
  | .providerNotFound provider =>
    [.acquire targets .read, .acquire (providers provider) .read, .release (providers provider),
      .release targets]
  | .apiKey provider =>
    [.acquire targets .read, .acquire (providers provider) .read, .release (providers provider),
      .release targets]
  | .invalidMethod provider providerKey =>
    [.acquire targets .read, .acquire (providers provider) .read] ++ getApiKey providerKey ++
      [.release (providers provider), .release targets]
  | .sent provider providerKey =>
    [.acquire targets .read, .acquire (providers provider) .read] ++ getApiKey providerKey ++
      [.call, .release (providers provider), .release targets]

/-- The accessors. -/
def accessor (shards : ℕ) : Accessor → Segment
  | .getConfig => touch config .read
  | .configHandle => touch config .read
  | .configHistory => touch configHistory .read
  | .dbOwnsRouting => touch targets .read
  | .listProviders => sweep .read ((List.range shards).map providers)
  | .getProvider shard => touch (providers shard) .read
  | .getApiKey shard => touch (providerKeys shard) .read

/-- The segments of a call that returns at the end, and where it returns. -/
def segments (shards : ℕ) : GatewayCall → List Segment × ℕ
  | .route beforeReads attempts afterReads stop =>
    (prepareRequest beforeReads ++ selectTargets ++ withFailover true attempts ++
      List.replicate afterReads (touch config .read), stop)
  | .routeStream beforeReads attempts stop =>
    (prepareRequest beforeReads ++ selectTargets ++ withFailover false attempts, stop)
  | .embed attempts stop =>
    ([touch config .read, touch targets .read, filterTargetsByRbac] ++ attempts.flatMap attempt,
      stop)
  | .proxy exit => ([proxy exit], 1)
  | .reloadConfig stop => (applyConfig shards ++ [touch configHistory .write], stop)
  | .rollbackConfig stop =>
    (touch configHistory .read :: applyConfig shards ++ [touch configHistory .write], stop)
  | .rebuildTargetsFromDb clients keys stale stop =>
    (rebuildTargetsFromDb shards clients keys stale, stop)
  | .accessor a => ([accessor shards a], 1)

/-- What a call does with the locks. -/
def program (shards : ℕ) (call : GatewayCall) : List (Action GatewayLock) :=
  ((segments shards call).1.take (segments shards call).2).flatten

end LockProgram

/-! ### Every segment but one is well locked -/

namespace LockProgram

theorem wellLocked_selectTargets : WellLocked rank
    [.acquire strategy .read, .acquire targets .read, .release targets, .release strategy] := by
  refine ⟨⟨by simp, ?_, rfl⟩, trivial⟩
  intro l hl
  obtain rfl := List.mem_singleton.1 hl
  exact rank_lt_of_level (by decide)

theorem wellLocked_applyConfig : WellLocked rank
    [.acquire strategy .write, .acquire config .write, .acquire targets .write, .release strategy,
      .release config, .release targets] := by
  refine ⟨⟨by simp, ?_, ?_, rfl⟩, trivial⟩
  · intro l hl
    obtain rfl := List.mem_singleton.1 hl
    exact rank_lt_of_level (by decide)
  · intro l hl
    rcases List.mem_pair.1 hl with rfl | rfl
    · exact rank_lt_of_level (by decide)
    · exact rank_lt_of_level (by decide)

theorem wellLocked_swapTargets : WellLocked rank
    [.acquire config .write, .acquire targets .write, .release targets, .release config] := by
  refine ⟨⟨by simp, ?_, rfl⟩, trivial⟩
  intro l hl
  obtain rfl := List.mem_singleton.1 hl
  exact rank_lt_of_level (by decide)

theorem wellLocked_getApiKey (providerKey : Option ℕ) :
    WellLocked rank (getApiKey providerKey) := by
  cases providerKey with
  | none => exact ⟨rfl, trivial⟩
  | some shard => exact .touch _ _

/-- The path of the proxy to the key lookup and back, around what it does at its far end. -/
theorem ordered_proxy (provider : ℕ) (providerKey : Option ℕ) {far : List (Action GatewayLock)}
    (hfar : Ordered rank [providers provider, targets] far) :
    Ordered rank []
      ([.acquire targets .read, .acquire (providers provider) .read] ++ getApiKey providerKey ++
        far) := by
  have htargets : ∀ l ∈ [targets], l.rank < (providers provider).rank := by
    intro l hl
    obtain rfl := List.mem_singleton.1 hl
    exact rank_lt_of_level (show 2 < 4 by decide)
  cases providerKey with
  | none => exact ⟨by simp, htargets, hfar⟩
  | some shard =>
    refine ⟨by simp, htargets, ?_, ?_⟩
    · intro l hl
      rcases List.mem_pair.1 hl with rfl | rfl
      · exact rank_lt_of_level (show 4 < 5 by decide)
      · exact rank_lt_of_level (show 2 < 5 by decide)
    · have hreleased : [providerKeys shard, providers provider, targets].filter
          (· ≠ providerKeys shard) = [providers provider, targets] := by simp
      show Ordered rank (List.filter _ _) far
      rw [hreleased]
      exact hfar

/-- Releasing the client and then the targets. -/
theorem ordered_proxy_release (provider : ℕ) :
    Ordered rank [providers provider, targets]
      [.release (providers provider), .release targets] := by
  simp [Ordered]

theorem ordered_segment_proxy (exit : ProxyExit) : Ordered rank [] (proxy exit) := by
  cases exit with
  | noTargets => exact (WellLocked.touch targets .read).ordered
  | providerNotFound provider => exact ordered_proxy provider none (ordered_proxy_release provider)
  | apiKey provider => exact ordered_proxy provider none (ordered_proxy_release provider)
  | invalidMethod provider providerKey =>
    exact ordered_proxy provider providerKey (ordered_proxy_release provider)
  | sent provider providerKey =>
    exact ordered_proxy provider providerKey (ordered_proxy_release provider)

/-- Short of its send, the proxy calls nobody. -/
theorem wellLocked_proxy {exit : ProxyExit} (h : ¬ (GatewayCall.proxy exit).Sends) :
    WellLocked rank (proxy exit) := by
  refine ⟨ordered_segment_proxy exit, ?_⟩
  cases exit with
  | noTargets => trivial
  | providerNotFound provider => trivial
  | apiKey provider => trivial
  | invalidMethod provider providerKey => cases providerKey <;> trivial
  | sent provider providerKey => exact absurd trivial h

theorem wellLocked_attempt {outcome : AttemptExit} {p : Segment} (h : p ∈ attempt outcome) :
    WellLocked rank p := by
  cases outcome with
  | circuitOpen => cases h
  | providerNotFound provider =>
    obtain rfl := List.mem_singleton.1 h
    exact .touch _ _
  | apiKey provider =>
    obtain rfl := List.mem_singleton.1 h
    exact .touch _ _
  | called provider providerKey =>
    rcases List.mem_cons.1 h with rfl | h
    · exact .touch _ _
    · rcases List.mem_pair.1 h with rfl | rfl
      · exact wellLocked_getApiKey providerKey
      · exact .call

theorem wellLocked_touches {locks : List ℕ} {lock : ℕ → GatewayLock} {mode : Mode} {p : Segment}
    (h : p ∈ locks.map fun shard ↦ touch (lock shard) mode) : WellLocked rank p := by
  obtain ⟨shard, -, rfl⟩ := List.mem_map.1 h
  exact .touch _ _

theorem wellLocked_reads {reads : ℕ} {p : Segment}
    (h : p ∈ List.replicate reads (touch config .read)) : WellLocked rank p := by
  obtain rfl := List.eq_of_mem_replicate h
  exact .touch _ _

theorem wellLocked_prepareRequest {reads : ℕ} {p : Segment} (h : p ∈ prepareRequest reads) :
    WellLocked rank p := by
  rcases List.mem_cons.1 h with rfl | h
  · exact .touch _ _
  · exact wellLocked_reads h

theorem wellLocked_of_mem_selectTargets {p : Segment} (h : p ∈ selectTargets) :
    WellLocked rank p := by
  rcases List.mem_pair.1 h with rfl | rfl
  · exact wellLocked_selectTargets
  · exact .touch _ _

theorem wellLocked_withFailover {recordLatency : Bool} {attempts : List (ℕ × AttemptExit)}
    {p : Segment} (h : p ∈ withFailover recordLatency attempts) : WellLocked rank p := by
  rcases List.mem_append.1 h with h | h
  · cases recordLatency with
    | true =>
      obtain rfl := List.mem_singleton.1 h
      exact .touch _ _
    | false => cases h
  · obtain ⟨a, -, h⟩ := List.mem_flatMap.1 h
    rcases List.mem_cons.1 h with rfl | h
    · exact .touch _ _
    · exact wellLocked_attempt h

theorem wellLocked_of_mem_applyConfig {shards : ℕ} {p : Segment} (h : p ∈ applyConfig shards) :
    WellLocked rank p := by
  rcases List.mem_cons.1 h with rfl | h
  · exact wellLocked_applyConfig
  · exact wellLocked_touches h

theorem wellLocked_rebuildTargetsFromDb {shards : ℕ} {clients keys stale : List ℕ} {p : Segment}
    (h : p ∈ rebuildTargetsFromDb shards clients keys stale) : WellLocked rank p := by
  simp only [rebuildTargetsFromDb, List.mem_append] at h
  rcases h with ((((h | h) | h) | h) | h) | h
  · exact wellLocked_touches h
  · exact wellLocked_touches h
  · exact wellLocked_touches h
  · obtain rfl := List.mem_singleton.1 h
    exact wellLocked_swapTargets
  · exact wellLocked_touches h
  · exact wellLocked_touches h

theorem wellLocked_accessor (shards : ℕ) (a : Accessor) : WellLocked rank (accessor shards a) := by
  cases a with
  | getConfig => exact .touch _ _
  | configHandle => exact .touch _ _
  | configHistory => exact .touch _ _
  | dbOwnsRouting => exact .touch _ _
  | listProviders => exact .sweep _ (isChain_providers shards)
  | getProvider shard => exact .touch _ _
  | getApiKey shard => exact .touch _ _

/-- **One exception.** A call that is not a proxied request on its way to the upstream takes its
locks in order and holds none while it waits for an answer. -/
theorem wellLocked_segments {shards : ℕ} {call : GatewayCall} (hcall : ¬ call.Sends) {p : Segment}
    (h : p ∈ (segments shards call).1) : WellLocked rank p := by
  cases call with
  | route beforeReads attempts afterReads stop =>
    simp only [segments, List.mem_append] at h
    rcases h with ((h | h) | h) | h
    · exact wellLocked_prepareRequest h
    · exact wellLocked_of_mem_selectTargets h
    · exact wellLocked_withFailover h
    · exact wellLocked_reads h
  | routeStream beforeReads attempts stop =>
    simp only [segments, List.mem_append] at h
    rcases h with (h | h) | h
    · exact wellLocked_prepareRequest h
    · exact wellLocked_of_mem_selectTargets h
    · exact wellLocked_withFailover h
  | embed attempts stop =>
    rcases List.mem_append.1 h with h | h
    -- one read each for the limits, the roles and the targets
    · simp only [List.mem_cons, List.not_mem_nil, or_false] at h
      rcases h with rfl | rfl | rfl
      · exact .touch _ _
      · exact .touch _ _
      · exact .touch _ _
    · obtain ⟨outcome, -, h⟩ := List.mem_flatMap.1 h
      exact wellLocked_attempt h
  | proxy exit =>
    obtain rfl := List.mem_singleton.1 h
    exact wellLocked_proxy hcall
  | reloadConfig stop =>
    rcases List.mem_append.1 h with h | h
    · exact wellLocked_of_mem_applyConfig h
    · obtain rfl := List.mem_singleton.1 h
      exact .touch _ _
  | rollbackConfig stop =>
    rcases List.mem_append.1 h with h | h
    · rcases List.mem_cons.1 h with rfl | h
      · exact .touch _ _
      · exact wellLocked_of_mem_applyConfig h
    · obtain rfl := List.mem_singleton.1 h
      exact .touch _ _
  | rebuildTargetsFromDb clients keys stale stop => exact wellLocked_rebuildTargetsFromDb h
  | accessor a =>
    obtain rfl := List.mem_singleton.1 h
    exact wellLocked_accessor shards a

theorem wellLocked_program {call : GatewayCall} (shards : ℕ) (hcall : ¬ call.Sends) :
    WellLocked rank (program shards call) :=
  .flatten fun _ hp ↦ wellLocked_segments hcall (List.mem_of_mem_take hp)

theorem ordered_program (shards : ℕ) (call : GatewayCall) :
    Ordered rank [] (program shards call) := by
  by_cases hcall : call.Sends
  · cases call with
    | proxy exit =>
      show Ordered rank [] [proxy exit].flatten
      rw [List.flatten_singleton]
      exact ordered_segment_proxy exit
    | _ => cases hcall
  · exact (wellLocked_program shards hcall).ordered

end LockProgram

/-! ### Runs -/

namespace GatewayLocks

open LockProgram

/-- The runs in which the allowed calls come in, any number of each. -/
def runs (shards : ℕ) (allowed : GatewayCall → Prop) :
    TransitionSystem (Locking.State GatewayCall GatewayLock) (Locking.Op GatewayCall) :=
  Locking.runs (program shards) allowed

variable {shards : ℕ} {allowed : GatewayCall → Prop} {s : Locking.State GatewayCall GatewayLock}

/-- **The gateway cannot deadlock.** No calls ever wait for one another in a cycle. -/
theorem gateway_acyclic (hs : (runs shards allowed).Reachable s) : s.Acyclic :=
  Locking.acyclic_of_reachable (fun call _ ↦ ordered_program shards call) hs

/-- No task that waits for an answer is in another's way: it holds no lock, and every task that does
not wait for one can finish without any answer but its own. -/
structure SilentSafe (shards : ℕ) (allowed : GatewayCall → Prop)
    (s : Locking.State GatewayCall GatewayLock) : Prop where
  bare : ∀ task ∈ s.tasks, task.Calling → task.locks = []
  canFinish : ∀ j task, s.tasks[j]? = some task → ¬ task.Calling →
    Locking.CanFinish (program shards) allowed s j

theorem silentSafe_of_reachable (hallowed : ∀ call, allowed call → ¬ call.Sends)
    (hs : (runs shards allowed).Reachable s) : SilentSafe shards allowed s where
  bare task htask :=
    (Locking.bare_of_reachable
      (fun call hcall ↦ (wellLocked_program shards (hallowed call hcall)).bare)
      hs task htask).now
  canFinish _ task hj _ :=
    Locking.canFinish_of_reachable (fun call _ ↦ ordered_program shards call)
      (fun call hcall ↦ (wellLocked_program shards (hallowed call hcall)).bare) hs ⟨task, hj⟩

/-- A proxied request alone gets to its upstream, and waits for it with two locks held. -/
theorem alone_sent {provider : ℕ} {providerKey : Option ℕ}
    (hcall : allowed (.proxy (.sent provider providerKey))) :
    Locking.Alone (program shards) allowed
      ⟨.proxy (.sent provider providerKey), [.release (providers provider), .release targets],
        [(providers provider, .read), (targets, .read)], .calling⟩ := by
  cases providerKey with
  | none =>
    have hstart : Locking.Alone (program shards) allowed
        ⟨.proxy (.sent provider none), .acquire targets .read ::
          .acquire (providers provider) .read :: .call :: .release (providers provider) ::
            [.release targets], [], .ready⟩ := .spawn hcall
    exact ((hstart.acquire (by simp)).acquire (by simp)).call
  | some shard =>
    have hstart : Locking.Alone (program shards) allowed
        ⟨.proxy (.sent provider (some shard)), .acquire targets .read ::
          .acquire (providers provider) .read :: .acquire (providerKeys shard) .read ::
            .release (providerKeys shard) :: .call :: .release (providers provider) ::
              [.release targets], [], .ready⟩ := .spawn hcall
    -- the shard of the key is released before the upstream is asked
    have hkey := (((hstart.acquire (by simp)).acquire (by simp)).acquire (by simp)).release
    have hreleased : List.filter (·.1 ≠ providerKeys shard)
        [(providerKeys shard, Mode.read), (providers provider, .read), (targets, .read)] =
          [(providers provider, .read), (targets, .read)] := by simp
    rw [hreleased] at hkey
    exact hkey.call

theorem exists_calling_of_sends {call : GatewayCall} (hcall : allowed call) (hsends : call.Sends) :
    ∃ s, (runs shards allowed).Reachable s ∧ ∃ task ∈ s.tasks, task.Calling ∧ task.locks ≠ [] := by
  cases call with
  | proxy exit =>
    cases exit with
    | sent provider providerKey =>
      obtain ⟨n, hs⟩ := alone_sent hcall
      exact ⟨_, hs, _, List.mem_singleton_self _, rfl, List.cons_ne_nil _ _⟩
    | _ => cases hsends
  | _ => cases hsends

/-- **A silent upstream blocks only its own request if and only if nothing is proxied to it.** -/
theorem silent_upstream_iff (shards : ℕ) (allowed : GatewayCall → Prop) :
    (∀ s, (runs shards allowed).Reachable s → s.Acyclic ∧ SilentSafe shards allowed s) ↔
      ∀ call, allowed call → ¬ call.Sends := by
  constructor
  · intro h call hcall hsends
    obtain ⟨s, hs, task, htask, hcalling, hlocks⟩ := exists_calling_of_sends hcall hsends
    exact hlocks ((h s hs).2.bare task htask hcalling)
  · intro hallowed s hs
    exact ⟨gateway_acyclic hs, silentSafe_of_reachable hallowed hs⟩

/-! ### One proxied request -/

/-- A request that would go to one target. -/
def routeOnce : GatewayCall := .route 0 [(0, .called 0 none)] 0 8

/-- A proxied request waits for its upstream, a reload with the strategy and the configuration
locked for the target list, and a request for the configuration. -/
def wedged : Locking.State GatewayCall GatewayLock where
  tasks :=
    [⟨.proxy (.sent 0 none), [.release (providers 0), .release targets],
        [(providers 0, .read), (targets, .read)], .calling⟩,
      ⟨.reloadConfig 3, (program 1 (.reloadConfig 3)).drop 3,
        [(config, .write), (strategy, .write)],
        .waiting targets .write 4⟩,
      ⟨routeOnce, (program 1 routeOnce).drop 1, [], .waiting config .read 5⟩]
  arrivals := 6

/-- The steps that lead there. -/
def wedgingRun : List (Locking.Op GatewayCall) :=
  [.spawn (.proxy (.sent 0 none)), .act 0, .grant 0, .act 0, .grant 0, .act 0,
    .spawn (.reloadConfig 3), .act 1, .grant 1, .act 1, .grant 1, .act 1, .spawn routeOnce, .act 2]

/-- **A silent upstream stops the gateway.** While the proxied request waits, neither the reload nor
any request after it can move. -/
theorem silent_proxy_wedges : (runs 1 fun _ ↦ True).Reachable wedged ∧
    (∃ task ∈ wedged.tasks, task.Calling ∧ task.locks = [providers 0, targets]) ∧
      ∃ task, wedged.tasks[2]? = some task ∧ ¬ task.Calling ∧
        ¬ Locking.CanFinish (program 1) (fun _ ↦ True) wedged 2 := by
  have hs : (runs 1 fun _ ↦ True).Reachable wedged :=
    TransitionSystem.reachable_guard_of_foldlM rfl wedgingRun rfl
  refine ⟨hs, ⟨_, List.mem_cons_self, rfl, rfl⟩, _, rfl, fun hcalling ↦ (by cases hcalling), ?_⟩
  refine Locking.not_canFinish_of_stuck rfl (fun hfinished ↦ by cases hfinished.1)
    fun op hsilent ↦ ?_
  match op, hsilent with
  | .act 0, _ => rfl
  | .act 1, _ => rfl
  | .act 2, _ => rfl
  | .act (i + 3), _ => rfl
  | .grant 0, _ => rfl
  | .grant 1, _ => rfl
  | .grant 2, _ => rfl
  | .grant (i + 3), _ => rfl
  | .reply _, rfl => rfl

end GatewayLocks

end Himadri
