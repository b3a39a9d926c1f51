import Himadri.Gateway.RebuildSteps
import Himadri.Provider.Registry
import Himadri.Transition.System

/-!
# Clients and keys of one version

Rebuilds from any sequence of tables, one map operation at a time, and any number of requests that
take a target from the live list, look up its client and then its key. `versions` collects every row
a rebuild has been called with, so a pair is good when some row in it built the client and stores
the key (`OneVersion`).

Between two rebuilds every registered client stands beside the key of its own row (`Settled`). While
one runs there are two ways to read a bad pair, and `Orderly` rules out exactly these: to look a
client up when it is in place and its key is not, or is already gone (`Torn`), and to have the key
replaced under a request that has its client (`rewritesKey`).
-/

namespace Himadri

/-- A call of `rebuild_targets_from_db` under way. -/
structure RebuildCall where
  rows : List BuiltRow
  onEmpty : OnEmpty
  /-- The gateway the call found. -/
  before : Gateway
  phase : RebuildPhase

/-- Where a request stands with one target. -/
inductive KeyLookup
  | taken (target : Target)
  | found (target : Target) (client : ProviderClient)
  | resolved (target : Target) (client : ProviderClient) (key : String)
  | failed

/-- The endpoint whose stored key the target uses. -/
def Target.keyedBy (target : Target) : Option String :=
  if target.apiKeyEnv = none then target.id else none

namespace KeyLookup

/-- The endpoint whose client the request looks up next. -/
def wants : KeyLookup → Option String
  | .taken target => target.keyedBy
  | _ => none

/-- The endpoint whose key the request looks up next, with the client it has found. -/
def holds : KeyLookup → Option (String × ProviderClient)
  | .found target client => target.keyedBy.map (·, client)
  | _ => none

end KeyLookup

/-- One step: a rebuild begins, the running one does one operation, a request takes the target at a
place of the live list, a request looks something up. -/
inductive CredentialOp
  | rebuild (models : List Model) (endpoints : List ModelEndpoint) (onEmpty : OnEmpty)
  | advance
  | take (i : ℕ)
  | findClient (j : ℕ)
  | findKey (j : ℕ)

/-- The gateway, the rebuild that runs, the requests, and the rows of all rebuilds so far. -/
structure CredentialRun where
  gateway : Gateway
  rebuild : Option RebuildCall
  lookups : List KeyLookup
  versions : List BuiltRow

namespace CredentialRun

variable (registry : ProviderRegistry) (envClients : KeyMap String ProviderClient)
  (env : String → Option String) (s : CredentialRun)

/-- Request `j` moves. -/
def move (j : ℕ) (lookup : KeyLookup) : CredentialRun :=
  { s with lookups := s.lookups.set j lookup }

/-- One step. The ids of a table are its primary key, and no endpoint is called like a client of the
environment. -/
def step? : CredentialOp → Option CredentialRun
  | .rebuild models endpoints onEmpty =>
    if s.rebuild.isNone ∧ (models.map (·.id)).Nodup ∧ (endpoints.map (·.id)).Nodup ∧
        endpoints.all fun e ↦ !envClients.containsKey e.id then
      let rows := buildRows registry models endpoints
      some
        { s with
          rebuild := some ⟨rows, onEmpty, s.gateway, .register rows⟩
          versions := s.versions ++ rows }
    else none
  | .advance =>
    match s.rebuild with
    | some call =>
      match call.phase.step call.rows call.onEmpty s.gateway with
      | (gateway, phase?) =>
        some
          { s with
            gateway := gateway
            rebuild := phase?.map fun phase ↦ { call with phase := phase } }
    | none => none
  | .take i => s.gateway.targets[i]?.map fun t ↦ { s with lookups := s.lookups ++ [.taken t] }
  | .findClient j =>
    match s.lookups[j]? with
    | some (.taken target) =>
      match s.gateway.providers.get (routingKey target) with
      | some client => some (s.move j (.found target client))
      | none => some (s.move j .failed)
    | _ => none
  | .findKey j =>
    match s.lookups[j]? with
    | some (.found target client) =>
      match s.gateway.getApiKey env target with
      | .ok key => some (s.move j (.resolved target client key))
      | .error _ => some (s.move j .failed)
    | _ => none

/-- The runs of a gateway booted with any configuration and the environment's clients. -/
def runs (regexNew : String → Option Regex) : TransitionSystem CredentialRun CredentialOp :=
  .ofPartial
    (fun s ↦ ∃ config,
      s = ⟨{ Gateway.new regexNew config with providers := envClients }, none, [], []⟩)
    (step? registry envClients env)

/-! ### The condition -/

/-- The running rebuild has put the client of the endpoint's new row in place, where another one
was, and the key is not the new row's yet; or it has dropped the key but not yet pruned the
client. -/
def Torn (id : String) : Prop :=
  ∃ call ∈ s.rebuild,
    (∃ row ∈ call.rows, row.endpoint.id = id ∧ s.gateway.providers.get id = some row.client ∧
      call.before.providers.get id ≠ some row.client ∧
        s.gateway.providerKeys.get id ≠ row.endpoint.storedKey) ∨
    (id ∉ activeIds call.rows ∧ s.gateway.providers.containsKey id ∧
      call.before.providerKeys.containsKey id ∧ ¬ s.gateway.providerKeys.containsKey id)

end CredentialRun

/-- The next operation of the call replaces or drops the endpoint's key. -/
def RebuildPhase.RewritesKey (rows : List BuiltRow) (g : Gateway) (id : String) :
    RebuildPhase → Prop
  | .insertKeys ((id', key) :: _) => id' = id ∧ g.providerKeys.get id ≠ some key
  | .retainKeys => id ∉ (newKeys rows).map Prod.fst ∧ g.providerKeys.containsKey id
  | _ => False

namespace CredentialRun

/-- A request looks up no client that is torn from its key, and no key is replaced or dropped under
a request that has the client, unless by a row that builds this very client. -/
def Orderly (s : CredentialRun) : CredentialOp → Prop
  | .findClient j => ∀ lookup ∈ s.lookups[j]?, ∀ id ∈ lookup.wants, ¬ s.Torn id
  | .advance => ∀ call ∈ s.rebuild, ∀ lookup ∈ s.lookups, ∀ p ∈ lookup.holds,
      call.phase.RewritesKey call.rows s.gateway p.1 →
        ∃ row ∈ call.rows, row.endpoint.id = p.1 ∧ row.client = p.2
  | _ => True

instance (s : CredentialRun) (id : String) : Decidable (s.Torn id) :=
  inferInstanceAs (Decidable (∃ call ∈ s.rebuild,
    (∃ row ∈ call.rows, _ ∧ _ ∧ _ ∧ _) ∨ (_ ∧ _ ∧ _ ∧ _)))

instance (rows : List BuiltRow) (g : Gateway) (id : String) :
    ∀ phase : RebuildPhase, Decidable (phase.RewritesKey rows g id)
  | .insertKeys (_ :: _) => inferInstanceAs (Decidable (_ ∧ _))
  | .insertKeys [] => inferInstanceAs (Decidable False)
  | .retainKeys => inferInstanceAs (Decidable (_ ∧ _))
  | .register _ => inferInstanceAs (Decidable False)
  | .swapTargets => inferInstanceAs (Decidable False)
  | .retainBreakers _ => inferInstanceAs (Decidable False)
  | .prune _ => inferInstanceAs (Decidable False)

instance (s : CredentialRun) : ∀ op, Decidable (s.Orderly op)
  | .findClient j =>
    inferInstanceAs (Decidable (∀ lookup ∈ s.lookups[j]?, ∀ id ∈ lookup.wants, ¬ s.Torn id))
  | .advance =>
    inferInstanceAs (Decidable (∀ call ∈ s.rebuild, ∀ lookup ∈ s.lookups, ∀ p ∈ lookup.holds,
      _ → ∃ row ∈ call.rows, _ ∧ _))
  | .rebuild _ _ _ => inferInstanceAs (Decidable True)
  | .take _ => inferInstanceAs (Decidable True)
  | .findKey _ => inferInstanceAs (Decidable True)

/-! ### What a step can do -/

section Inversion

variable {registry : ProviderRegistry} {envClients : KeyMap String ProviderClient}
  {env : String → Option String} {s s' : CredentialRun}

theorem step?_rebuild {models : List Model} {endpoints : List ModelEndpoint} {onEmpty : OnEmpty}
    (h : s.step? registry envClients env (.rebuild models endpoints onEmpty) = some s') :
    s.rebuild = none ∧ ∃ rows, (activeIds rows).Nodup ∧
      (∀ row ∈ rows, ¬ envClients.containsKey row.endpoint.id) ∧
        s' =
          { s with
            rebuild := some ⟨rows, onEmpty, s.gateway, .register rows⟩
            versions := s.versions ++ rows } := by
  obtain ⟨⟨hidle, hmodels, hendpoints, hids⟩, hs'⟩ := Option.ite_none_right_eq_some.1 h
  refine ⟨Option.isNone_iff_eq_none.1 hidle, _,
    nodup_activeIds_buildRows registry hmodels hendpoints, fun row hrow ↦ ?_,
    (Option.some.inj hs').symm⟩
  have hendpoint := List.all_eq_true.1 hids _ (mem_buildRows hrow).2.2.1
  simpa using hendpoint

theorem step?_advance (h : s.step? registry envClients env .advance = some s') :
    ∃ call, s.rebuild = some call ∧
      s' =
        { s with
          gateway := (call.phase.step call.rows call.onEmpty s.gateway).1
          rebuild := (call.phase.step call.rows call.onEmpty s.gateway).2.map
            fun phase ↦ { call with phase := phase } } := by
  simp only [step?] at h
  split at h
  · next call hcall => exact ⟨call, hcall, (Option.some.inj h).symm⟩
  · cases h

theorem step?_take {i : ℕ} (h : s.step? registry envClients env (.take i) = some s') :
    ∃ target, s' = { s with lookups := s.lookups ++ [.taken target] } := by
  obtain ⟨target, -, rfl⟩ := Option.map_eq_some_iff.1 h
  exact ⟨target, rfl⟩

theorem step?_findClient {j : ℕ} (h : s.step? registry envClients env (.findClient j) = some s') :
    ∃ target, s.lookups[j]? = some (.taken target) ∧
      ((∃ client, s.gateway.providers.get (routingKey target) = some client ∧
          s' = s.move j (.found target client)) ∨
        s' = s.move j .failed) := by
  simp only [step?] at h
  split at h
  · next target hj =>
    refine ⟨target, hj, ?_⟩
    split at h
    · next client hclient => exact .inl ⟨client, hclient, (Option.some.inj h).symm⟩
    · exact .inr (Option.some.inj h).symm
  · cases h

theorem step?_findKey {j : ℕ} (h : s.step? registry envClients env (.findKey j) = some s') :
    ∃ target client, s.lookups[j]? = some (.found target client) ∧
      ((∃ key, s.gateway.getApiKey env target = .ok key ∧
          s' = s.move j (.resolved target client key)) ∨
        s' = s.move j .failed) := by
  simp only [step?] at h
  split at h
  · next target client hj =>
    refine ⟨target, client, hj, ?_⟩
    split at h
    · next key hkey => exact .inl ⟨key, hkey, (Option.some.inj h).symm⟩
    · exact .inr (Option.some.inj h).symm
  · cases h

end Inversion

end CredentialRun

theorem Target.keyedBy_eq_some {target : Target} {id : String} :
    target.keyedBy = some id ↔ target.apiKeyEnv = none ∧ target.id = some id :=
  Option.ite_none_right_eq_some

/-! ### Pairs of one version -/

/-- Some row of the endpoint built the client and stores this key, or no key. -/
def OneVersion (versions : List BuiltRow) (id : String) (client : ProviderClient)
    (stored : Option String) : Prop :=
  ∃ row ∈ versions, row.endpoint.id = id ∧ row.client = client ∧ row.endpoint.storedKey = stored

theorem OneVersion.mono {versions versions' : List BuiltRow} {id : String} {client : ProviderClient}
    {stored : Option String} (h : OneVersion versions id client stored)
    (hsub : versions ⊆ versions') : OneVersion versions' id client stored := by
  obtain ⟨row, hrow, hversion⟩ := h
  exact ⟨row, hsub hrow, hversion⟩

/-- A gateway between two rebuilds: every client registered for an endpoint stands beside the key of
its own row, and its endpoint routes. -/
structure Settled (envClients : KeyMap String ProviderClient) (versions : List BuiltRow)
    (g : Gateway) : Prop where
  paired : ∀ id client, ¬ envClients.containsKey id → g.providers.get id = some client →
    OneVersion versions id client (g.providerKeys.get id)
  routed : ∀ id, ¬ envClients.containsKey id → g.providers.containsKey id →
    id ∈ targetIds g.targets

namespace Settled

variable {envClients : KeyMap String ProviderClient} {versions versions' rows : List BuiltRow}
  {before g : Gateway} {id : String} {client : ProviderClient}

theorem mono (h : Settled envClients versions g) (hsub : versions ⊆ versions') :
    Settled envClients versions' g where
  paired id client hid hclient := (h.paired id client hid hclient).mono hsub
  routed := h.routed

/-- A whole rebuild keeps the gateway settled. -/
theorem rebuildRows (h : Settled envClients versions before) (hsub : rows ⊆ versions)
    (hnodup : (activeIds rows).Nodup) (onEmpty : OnEmpty) :
    Settled envClients versions (before.rebuildRows rows onEmpty) := by
  cases hkeep : Gateway.keepsPrevious rows onEmpty with
  | true =>
    rw [Gateway.rebuildRows, hkeep, if_pos rfl]
    exact h
  | false =>
    rw [Gateway.rebuildRows_applied hkeep]
    -- a client that is left belongs to an active endpoint
    have hactive : ∀ id, ¬ envClients.containsKey id →
        (before.applyRows rows).providers.containsKey id → id ∈ activeIds rows := by
      intro id hid hreg
      rcases Gateway.containsKey_providers_applyRows.1 hreg with ⟨hold, hlive⟩ | hactive
      · exact absurd (h.routed id hid hold) hlive
      · exact hactive
    refine ⟨fun id client hid hclient ↦ ?_, fun id hid hreg ↦ ?_⟩
    · obtain ⟨row, hrow, hrowid, hnew, hkey⟩ := Gateway.get_applyRows_of_mem (g := before) hnodup
        (hactive id hid (KeyMap.containsKey_iff.2 ⟨client, hclient⟩))
      exact ⟨row, hsub hrow, hrowid, Option.some.inj (hnew.symm.trans hclient), hkey.symm⟩
    · rw [Gateway.targets_applyRows, targetIds_newTargets]
      exact hactive id hid hreg

/-- **Not torn, the client a request sees stands beside the key of one version**, whatever the
running rebuild has done so far. -/
theorem paired_of_seen (h : Settled envClients versions before) (hsub : rows ⊆ versions)
    (hid : ¬ envClients.containsKey id) (hseen : Gateway.Seen before rows g id)
    (hrepointed : ∀ row ∈ rows, row.endpoint.id = id → g.providers.get id = some row.client →
      before.providers.get id ≠ some row.client → g.providerKeys.get id = row.endpoint.storedKey)
    (hremoved : id ∉ activeIds rows → g.providers.containsKey id →
      before.providerKeys.containsKey id → g.providerKeys.containsKey id)
    (hclient : g.providers.get id = some client) :
    OneVersion versions id client (g.providerKeys.get id) := by
  cases hseen with
  | untouched hsame hkey =>
    rw [hkey]
    exact h.paired id client hid (hsame.symm.trans hclient)
  -- the new client beside the old key is torn, unless the row builds the client that was there
  | registered row hrow hrowid hnew hkey =>
    obtain rfl : row.client = client := Option.some.inj (hnew.symm.trans hclient)
    by_cases hold : before.providers.get id = some row.client
    · rw [hkey]
      exact h.paired id _ hid hold
    · exact ⟨row, hsub hrow, hrowid, rfl, (hrepointed row hrow hrowid hnew hold).symm⟩
  | renewed row hrow hrowid hnew hkey =>
    exact ⟨row, hsub hrow, hrowid, Option.some.inj (hnew.symm.trans hclient), hkey.symm⟩
  -- the old client without its key is torn, unless none was stored
  | dropped hinactive hsame hkey =>
    have hold := h.paired id client hid (hsame.symm.trans hclient)
    cases hstored : before.providerKeys.get id with
    | none =>
      rw [hkey, ← hstored]
      exact hold
    | some key =>
      have hcontains := hremoved hinactive (KeyMap.containsKey_iff.2 ⟨client, hclient⟩)
        (KeyMap.containsKey_iff.2 ⟨key, hstored⟩)
      obtain ⟨key', hkey'⟩ := KeyMap.containsKey_iff.1 hcontains
      rw [hkey] at hkey'
      cases hkey'
  | pruned _ hnone =>
    rw [hnone] at hclient
    cases hclient

end Settled

/-- An operation that replaces or drops a key leaves what the endpoint's row stores. -/
theorem RebuildPhase.At.get_providerKeys_step {rows : List BuiltRow} {onEmpty : OnEmpty}
    {before g : Gateway} {phase : RebuildPhase} (h : At rows onEmpty before phase g)
    (hnodup : (activeIds rows).Nodup) (id : String) :
    (phase.step rows onEmpty g).1.providerKeys.get id = g.providerKeys.get id ∨
      phase.RewritesKey rows g id ∧ ∀ row ∈ rows, row.endpoint.id = id →
        (phase.step rows onEmpty g).1.providerKeys.get id = row.endpoint.storedKey := by
  cases h with
  | @register done left h =>
    cases left with
    | nil =>
      rw [RebuildPhase.step]
      split <;> exact .inl rfl
    | cons row left => exact .inl rfl
  | @insertKeys done left happly h =>
    cases left with
    | nil => exact .inl rfl
    | cons entry left =>
      obtain ⟨id', key⟩ := entry
      rcases eq_or_ne id id' with rfl | hne
      -- the key written is the new row's, if it is another one than before
      · have hstep : ∀ g : Gateway, ((RebuildPhase.insertKeys ((id, key) :: left)).step rows onEmpty
            g).1.providerKeys.get id = some key := fun g ↦ KeyMap.get_insert_self ..
        rw [hstep]
        by_cases hsame :
            ((before.registerClients rows).insertKeys done).providerKeys.get id = some key
        · exact .inl hsame.symm
        · refine .inr ⟨⟨rfl, hsame⟩, fun row hrow hid ↦ ?_⟩
          obtain ⟨row', hrow', hid', hkey⟩ :=
            mem_newKeys.1 (h ▸ List.mem_append_right done List.mem_cons_self)
          obtain rfl := row_unique hnodup hrow' hrow (hid'.trans hid.symm)
          exact hkey.symm
      · exact .inl (KeyMap.get_insert_of_ne hne)
  | retainKeys happly =>
    by_cases hnew : id ∈ (newKeys rows).map Prod.fst
    -- only a key that no new row stores is dropped
    · exact .inl ((KeyMap.get_retain ..).trans (if_pos (decide_eq_true hnew)))
    · cases hold :
          ((before.registerClients rows).insertKeys (newKeys rows)).providerKeys.get id with
      | none => exact .inl ((KeyMap.get_retain ..).trans (if_neg (by simpa using hnew)))
      | some key =>
        refine .inr ⟨⟨hnew, KeyMap.containsKey_iff.2 ⟨key, hold⟩⟩, fun row hrow hid ↦ ?_⟩
        rw [← hid]
        exact Gateway.get_providerKeys_replaceKeys_of_mem hnodup hrow
  | swapTargets happly => exact .inl rfl
  | retainBreakers happly => exact .inl rfl
  | @prune done left happly h =>
    cases left with
    | nil => exact .inl rfl
    | cons id left => exact .inl rfl

/-! ### The run -/

/-- A call over settled tables that stands over the gateway it has made so far. -/
structure RebuildCall.Sound (envClients : KeyMap String ProviderClient) (versions : List BuiltRow)
    (g : Gateway) (call : RebuildCall) : Prop where
  settled : Settled envClients versions call.before
  known : call.rows ⊆ versions
  nodup : (activeIds call.rows).Nodup
  stands : call.phase.At call.rows call.onEmpty call.before g

namespace CredentialRun

/-- The gateway is settled or on its way from one settled state to the next; a request with a client
would find a key of one version, and those that have both found them of one version. -/
structure Paired (envClients : KeyMap String ProviderClient) (s : CredentialRun) : Prop where
  foreign : ∀ row ∈ s.versions, ¬ envClients.containsKey row.endpoint.id
  idle : s.rebuild = none → Settled envClients s.versions s.gateway
  running : ∀ call ∈ s.rebuild, call.Sound envClients s.versions s.gateway
  holding : ∀ lookup ∈ s.lookups, ∀ p ∈ lookup.holds, ¬ envClients.containsKey p.1 →
    OneVersion s.versions p.1 p.2 (s.gateway.providerKeys.get p.1)
  resolved : ∀ target client key, .resolved target client key ∈ s.lookups →
    ∀ id ∈ target.keyedBy, ¬ envClients.containsKey id →
      ∃ stored, OneVersion s.versions id client stored ∧ key = stored.getD ""

namespace Paired

variable {registry : ProviderRegistry} {envClients : KeyMap String ProviderClient}
  {env : String → Option String} {s s' : CredentialRun}

theorem boot (regexNew : String → Option Regex) (config : Config) :
    Paired envClients
      ⟨{ Gateway.new regexNew config with providers := envClients }, none, [], []⟩ where
  foreign row hrow := by cases hrow
  idle _ :=
    { paired := fun id client hid hclient ↦
        absurd (KeyMap.containsKey_iff.2 ⟨client, hclient⟩) hid
      routed := fun id hid hreg ↦ absurd hreg hid }
  running call hcall := by cases hcall
  holding lookup hmem := by cases hmem
  resolved target client key hmem := by cases hmem

theorem rebuild (h : s.Paired envClients) {models : List Model} {endpoints : List ModelEndpoint}
    {onEmpty : OnEmpty}
    (hstep : s.step? registry envClients env (.rebuild models endpoints onEmpty) = some s') :
    s'.Paired envClients := by
  obtain ⟨hidle, rows, hnodup, hforeign, rfl⟩ := step?_rebuild hstep
  have hsub : s.versions ⊆ s.versions ++ rows := List.subset_append_left _ _
  refine ⟨fun row hrow ↦ (List.mem_append.1 hrow).elim (h.foreign row) (hforeign row),
    fun hnone ↦ (by cases hnone), fun call hcall ↦ ?_, fun lookup hmem p hp hid ↦ ?_,
    fun target client key hmem id hkeyed hid ↦ ?_⟩
  · obtain rfl := Option.some.inj hcall
    exact ⟨(h.idle hidle).mono hsub, List.subset_append_right _ _, hnodup,
      @RebuildPhase.At.register _ _ _ [] _ rfl⟩
  · exact (h.holding lookup hmem p hp hid).mono hsub
  · obtain ⟨stored, hversion, hkey⟩ := h.resolved target client key hmem id hkeyed hid
    exact ⟨stored, hversion.mono hsub, hkey⟩

theorem advance (h : s.Paired envClients)
    (hstep : s.step? registry envClients env .advance = some s') (hok : s.Orderly .advance) :
    s'.Paired envClients := by
  obtain ⟨call, hcall, rfl⟩ := step?_advance hstep
  have hsound := h.running call hcall
  have hstands := hsound.stands.step
  refine ⟨h.foreign, fun hnone ↦ ?_, fun call' hcall' ↦ ?_, fun lookup hmem p hp hid ↦ ?_,
    h.resolved⟩
  · -- the call has returned
    have hdone := Option.map_eq_none_iff.1 hnone
    split at hstands
    · next heq => rw [heq] at hdone; cases hdone
    · next heq =>
      show Settled envClients s.versions (call.phase.step call.rows call.onEmpty s.gateway).1
      rw [heq, hstands]
      exact hsound.settled.rebuildRows hsound.known hsound.nodup call.onEmpty
  · obtain ⟨phase, hphase, rfl⟩ := Option.map_eq_some_iff.1 hcall'
    refine ⟨hsound.settled, hsound.known, hsound.nodup, ?_⟩
    split at hstands
    · next heq =>
      rw [heq] at hphase
      obtain rfl := Option.some.inj hphase
      show RebuildPhase.At _ _ _ _ (call.phase.step call.rows call.onEmpty s.gateway).1
      rw [heq]
      exact hstands
    · next heq => rw [heq] at hphase; cases hphase
  · have hold := h.holding lookup hmem p hp hid
    rcases hsound.stands.get_providerKeys_step hsound.nodup p.1 with hkey | ⟨hrewrites, hkey⟩
    · show OneVersion _ _ _
        ((call.phase.step call.rows call.onEmpty s.gateway).1.providerKeys.get _)
      rw [hkey]
      exact hold
    · -- the key changes under a request only where its client is the new row's
      obtain ⟨row, hrow, hrowid, hclient⟩ := hok call hcall lookup hmem p hp hrewrites
      exact ⟨row, hsound.known hrow, hrowid, hclient, (hkey row hrow hrowid).symm⟩

/-- A request that moves changes nothing for the others. -/
theorem move (h : s.Paired envClients) {j : ℕ} {lookup : KeyLookup}
    (hholds : ∀ p ∈ lookup.holds, ¬ envClients.containsKey p.1 →
      OneVersion s.versions p.1 p.2 (s.gateway.providerKeys.get p.1))
    (hresolved : ∀ target client key, lookup = .resolved target client key →
      ∀ id ∈ target.keyedBy, ¬ envClients.containsKey id →
        ∃ stored, OneVersion s.versions id client stored ∧ key = stored.getD "") :
    (s.move j lookup).Paired envClients where
  foreign := h.foreign
  idle := h.idle
  running := h.running
  holding l hl := by
    rcases List.mem_or_eq_of_mem_set hl with hl | rfl
    · exact h.holding l hl
    · exact hholds
  resolved target client key hl := by
    rcases List.mem_or_eq_of_mem_set hl with hl | heq
    · exact h.resolved target client key hl
    · exact hresolved target client key heq.symm

/-- A client that is not torn from its key. -/
theorem oneVersion_of_not_torn (h : s.Paired envClients) {id : String} {client : ProviderClient}
    (hid : ¬ envClients.containsKey id) (htorn : ¬ s.Torn id)
    (hclient : s.gateway.providers.get id = some client) :
    OneVersion s.versions id client (s.gateway.providerKeys.get id) := by
  cases hcall : s.rebuild with
  | none => exact (h.idle hcall).paired id client hid hclient
  | some call =>
    have hsound := h.running call hcall
    refine hsound.settled.paired_of_seen hsound.known hid (hsound.stands.seen hsound.nodup id) ?_ ?_
      hclient
    · intro row hrow hrowid hnew hold
      by_contra hkey
      exact htorn ⟨call, hcall, .inl ⟨row, hrow, hrowid, hnew, hold, hkey⟩⟩
    · intro hinactive hreg hold
      by_contra hkey
      exact htorn ⟨call, hcall, .inr ⟨hinactive, hreg, hold, hkey⟩⟩

theorem routingKey_of_keyedBy {target : Target} {id : String} (h : target.keyedBy = some id) :
    routingKey target = id := by
  rw [routingKey, (Target.keyedBy_eq_some.1 h).2]
  rfl

theorem findClient (h : s.Paired envClients) {j : ℕ}
    (hstep : s.step? registry envClients env (.findClient j) = some s')
    (hok : s.Orderly (.findClient j)) : s'.Paired envClients := by
  obtain ⟨target, hj, ⟨client, hclient, rfl⟩ | rfl⟩ := step?_findClient hstep
  · refine h.move (fun p hp hid ↦ ?_) fun target client key heq ↦ by cases heq
    obtain ⟨id, hkeyed, rfl⟩ := Option.map_eq_some_iff.1 hp
    rw [routingKey_of_keyedBy hkeyed] at hclient
    exact h.oneVersion_of_not_torn hid (hok _ hj id hkeyed) hclient
  · exact h.move (fun p hp ↦ by cases hp) fun target client key heq ↦ by cases heq

theorem findKey (h : s.Paired envClients) {j : ℕ}
    (hstep : s.step? registry envClients env (.findKey j) = some s') : s'.Paired envClients := by
  obtain ⟨target, client, hj, ⟨key, hkey, rfl⟩ | rfl⟩ := step?_findKey hstep
  · refine h.move (fun p hp ↦ by cases hp) fun target' client' key' heq id hkeyed hid ↦ ?_
    obtain ⟨rfl, rfl, rfl⟩ := KeyLookup.resolved.inj heq
    have hold := h.holding _ (List.mem_of_getElem? hj) (id, client)
      (by rw [KeyLookup.holds, hkeyed]; rfl) hid
    refine ⟨_, hold, ?_⟩
    rw [Gateway.getApiKey, (Target.keyedBy_eq_some.1 hkeyed).1] at hkey
    rw [← routingKey_of_keyedBy hkeyed]
    exact (Except.ok.inj hkey).symm
  · exact h.move (fun p hp ↦ by cases hp) fun target client key heq ↦ by cases heq

end Paired

theorem paired_invariant (registry : ProviderRegistry) (envClients : KeyMap String ProviderClient)
    (env : String → Option String) (regexNew : String → Option Regex) :
    ((runs registry envClients env regexNew).guard Orderly).Invariant (Paired envClients) where
  init s hs := by
    obtain ⟨config, rfl⟩ := hs
    exact .boot regexNew config
  step s op s' h hstep := by
    obtain ⟨hstep, hok⟩ := hstep
    cases op with
    | rebuild models endpoints onEmpty => exact h.rebuild hstep
    | advance => exact h.advance hstep hok
    | take i =>
      obtain ⟨target, rfl⟩ := step?_take hstep
      refine ⟨h.foreign, h.idle, h.running, fun lookup hmem ↦ ?_, fun target client key hmem ↦ ?_⟩
      · rcases List.mem_append.1 hmem with hmem | hmem
        · exact h.holding lookup hmem
        · obtain rfl := List.mem_singleton.1 hmem
          exact fun p hp ↦ by cases hp
      · rcases List.mem_append.1 hmem with hmem | hmem
        · exact h.resolved target client key hmem
        · cases List.mem_singleton.1 hmem
    | findClient j => exact h.findClient hstep hok
    | findKey j => exact h.findKey hstep

/-- **Credentials stay paired with their endpoint.** In every run that meets `Orderly`, a request
that has resolved the target of a row holds a client and a key of one version of that row, and not
the empty key where the version stores one. -/
theorem credentials_paired {registry : ProviderRegistry} {envClients : KeyMap String ProviderClient}
    {env : String → Option String} {regexNew : String → Option Regex} {s : CredentialRun}
    (hs : ((runs registry envClients env regexNew).guard Orderly).Reachable s) {row : BuiltRow}
    (hrow : row ∈ s.versions) {client : ProviderClient} {key : String}
    (hmem : .resolved row.target client key ∈ s.lookups) :
    ∃ version ∈ s.versions, version.endpoint.id = row.endpoint.id ∧ version.client = client ∧
      version.endpoint.storedKey.getD "" = key ∧
        (version.endpoint.storedKey.isSome → key ≠ "") := by
  have hpaired := (paired_invariant registry envClients env regexNew).of_reachable hs
  obtain ⟨stored, ⟨version, hversion, hid, hclient, rfl⟩, hkey⟩ :=
    hpaired.resolved row.target client key hmem row.endpoint.id rfl (hpaired.foreign row hrow)
  refine ⟨version, hversion, hid, hclient, hkey.symm, fun hstored ↦ ?_⟩
  obtain ⟨k, hk⟩ := Option.isSome_iff_exists.1 hstored
  rw [hkey, hk]
  exact version.endpoint.ne_empty_of_storedKey hk

/-! ### One endpoint, moved to another host -/

/-- The endpoint, with a host and a key. -/
def endpointAt (baseUrl key : String) : ModelEndpoint :=
  ⟨"ep-1", "m", "openai", some baseUrl, some key, 1, true⟩

/-- A rebuild from the tables that hold these endpoints. -/
def rebuildFrom (endpoints : List ModelEndpoint) : CredentialOp :=
  .rebuild [⟨"m", "gpt", true⟩] endpoints .apply

/-- The runs without clients or keys of the environment, with the registry the source builds. -/
def databaseRuns : TransitionSystem CredentialRun CredentialOp :=
  runs buildProviderRegistry .empty (fun _ ↦ none) fun _ ↦ none

/-- The start of such a run. -/
def boot : CredentialRun :=
  ⟨{ Gateway.new (fun _ ↦ none) .default with providers := .empty }, none, [], []⟩

/-- A request with a target of a database row whose client and key no version of the row puts
together. -/
def MixesVersions (s : CredentialRun) : Prop :=
  ∃ row ∈ s.versions, ∃ client key, .resolved row.target client key ∈ s.lookups ∧
    ∀ version ∈ s.versions, version.endpoint.id = row.endpoint.id → version.client = client →
      version.endpoint.storedKey.getD "" ≠ key

/-- One rebuild, from its call to its return. -/
def wholeRebuild (endpoint : ModelEndpoint) : List CredentialOp :=
  rebuildFrom [endpoint] :: List.replicate 8 .advance

/-- A request that no rebuild interrupts. -/
theorem credentials_paired_undisturbed : ∃ s, ∃ row ∈ s.versions, ∃ client key,
    (databaseRuns.guard Orderly).Reachable s ∧ .resolved row.target client key ∈ s.lookups ∧
      ∃ version ∈ s.versions,
        version.client = client ∧ version.endpoint.storedKey.getD "" = key := by
  have hboot : ∃ config, boot = ⟨{ Gateway.new (fun _ ↦ none) config with
      providers := .empty }, none, [], []⟩ := ⟨.default, rfl⟩
  have hs : (databaseRuns.guard Orderly).Reachable _ :=
    TransitionSystem.reachable_guard_of_foldlM hboot
      (wholeRebuild (endpointAt "http://a" "k1") ++ [.take 0, .findClient 0, .findKey 0]) rfl
  obtain ⟨version, hversion, -, hclient, hkey, -⟩ :=
    credentials_paired hs List.mem_cons_self List.mem_cons_self
  exact ⟨_, _, List.mem_cons_self, _, _, hs, List.mem_cons_self, version, hversion, hclient, hkey⟩

/-- **A moved endpoint's old key goes to its new host, and a removed one's client goes out without a
key.** -/
theorem rebuild_mixes_versions :
    (∃ s, databaseRuns.Reachable s ∧ s.MixesVersions) ∧
      ∃ s, databaseRuns.Reachable s ∧ ∃ row ∈ s.versions, row.endpoint.storedKey.isSome ∧
        ∃ client, .resolved row.target client "" ∈ s.lookups := by
  have hboot : ∃ config, boot = ⟨{ Gateway.new (fun _ ↦ none) config with
      providers := .empty }, none, [], []⟩ := ⟨.default, rfl⟩
  have hmoved : databaseRuns.Reachable _ := TransitionSystem.reachable_of_foldlM hboot
    (wholeRebuild (endpointAt "http://a" "k1") ++
      [.take 0, rebuildFrom [endpointAt "http://b" "k2"], .advance, .findClient 0, .findKey 0]) rfl
  have hremoved : databaseRuns.Reachable _ := TransitionSystem.reachable_of_foldlM hboot
    (wholeRebuild (endpointAt "http://a" "k1") ++
      [.take 0, .findClient 0, rebuildFrom []] ++ List.replicate 3 .advance ++ [.findKey 0]) rfl
  refine ⟨⟨_, hmoved, ⟨_, List.mem_cons_self, _, _, List.mem_cons_self, ?_⟩⟩,
    ⟨_, hremoved, _, List.mem_cons_self, rfl, _, List.mem_cons_self⟩⟩
  decide

end CredentialRun

end Himadri
