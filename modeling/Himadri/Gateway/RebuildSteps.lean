import Himadri.Gateway.Rebuild
import Mathlib.Data.List.Nodup

/-!
# A rebuild one map operation at a time

`RebuildPhase` is where a call of `rebuild_targets_from_db` that has built its rows stands between
two operations on the shared maps. The phase determines the gateway the call has made of the one it
found (`RebuildPhase.At`), so a call that nothing else writes under returns what the uninterrupted
one does (`RebuildPhase.At.returns`). What the client and the key map hold for one endpoint on the
way is one of five cases (`Gateway.Seen`).
-/

namespace Himadri

/-- What a call of `rebuild_targets_from_db` has left to do. -/
inductive RebuildPhase
  /-- The loop over the endpoints. -/
  | register (left : List BuiltRow)
  | insertKeys (left : List (String × String))
  | retainKeys
  | swapTargets
  | retainBreakers (previousIds : List String)
  | prune (left : List String)

namespace Gateway

variable (g : Gateway)

/-- Insert some of the new keys. -/
def insertKeys (keys : List (String × String)) : Gateway :=
  { g with providerKeys := g.providerKeys.insertAll keys }

/-- What the uninterrupted call makes of the gateway, given its rows. -/
def rebuildRows (rows : List BuiltRow) (onEmpty : OnEmpty) : Gateway :=
  if keepsPrevious rows onEmpty then g else g.applyRows rows

variable {g} {rows : List BuiltRow} {onEmpty : OnEmpty}

theorem rebuildRows_applied (h : keepsPrevious rows onEmpty = false) :
    g.rebuildRows rows onEmpty = g.applyRows rows := by
  rw [rebuildRows, h, if_neg Bool.false_ne_true]

/-- A call that keeps the previous targets has found no row, so it has registered nothing. -/
theorem rebuildRows_kept (h : keepsPrevious rows onEmpty = true) :
    g.rebuildRows rows onEmpty = g.registerClients rows := by
  obtain rfl : rows = [] := by
    rw [keepsPrevious, Bool.and_eq_true, List.isEmpty_iff] at h
    exact h.1
  rw [rebuildRows, h, if_pos rfl]
  rfl

theorem registerClients_concat (g : Gateway) (rows : List BuiltRow) (row : BuiltRow) :
    g.registerClients (rows ++ [row]) =
      { g.registerClients rows with
        providers := (g.registerClients rows).providers.insert row.endpoint.id row.client } := by
  rw [registerClients, newClients, List.map_append]
  exact congrArg (fun m ↦ { g with providers := m }) (KeyMap.insertAll_concat ..)

theorem insertKeys_concat (g : Gateway) (keys : List (String × String)) (entry : String × String) :
    g.insertKeys (keys ++ [entry]) =
      { g.insertKeys keys with
        providerKeys := (g.insertKeys keys).providerKeys.insert entry.1 entry.2 } :=
  congrArg (fun m ↦ { g with providerKeys := m }) (KeyMap.insertAll_concat ..)

theorem pruneClients_concat (g : Gateway) (ids : List String) (id : String) :
    g.pruneClients (ids ++ [id]) =
      { g.pruneClients ids with providers := (g.pruneClients ids).providers.remove id } :=
  congrArg (fun m ↦ { g with providers := m }) (KeyMap.removeAll_concat ..)

theorem rebuildTargetsFromDb_fst (g : Gateway) (registry : ProviderRegistry) (models : List Model)
    (endpoints : List ModelEndpoint) (onEmpty : OnEmpty) :
    (g.rebuildTargetsFromDb registry models endpoints onEmpty).1 =
      g.rebuildRows (buildRows registry models endpoints) onEmpty := by
  cases h : keepsPrevious (buildRows registry models endpoints) onEmpty with
  | true =>
    rw [rebuildRows, h, if_pos rfl]
    exact rebuildTargetsFromDb_kept h
  | false => exact (rebuildTargetsFromDb_applied h).trans (rebuildRows_applied h).symm

end Gateway

namespace RebuildPhase

variable (rows : List BuiltRow) (onEmpty : OnEmpty)

/-- One operation of a call with these rows; after its last phase the call has returned. -/
def step (g : Gateway) : RebuildPhase → Gateway × Option RebuildPhase
  | .register (row :: left) =>
    ({ g with providers := g.providers.insert row.endpoint.id row.client }, some (.register left))
  | .register [] =>
    if Gateway.keepsPrevious rows onEmpty then (g, none)
    else (g, some (.insertKeys (newKeys rows)))
  | .insertKeys ((id, key) :: left) =>
    ({ g with providerKeys := g.providerKeys.insert id key }, some (.insertKeys left))
  | .insertKeys [] => (g, some .retainKeys)
  | .retainKeys =>
    ({ g with
        providerKeys := g.providerKeys.retain fun id ↦ decide (id ∈ (newKeys rows).map Prod.fst) },
      some .swapTargets)
  | .swapTargets => (g.swapTargets rows, some (.retainBreakers (targetIds g.targets)))
  | .retainBreakers previousIds =>
    (g.retainBreakers rows,
      some (.prune (previousIds.filter fun id ↦ decide (id ∉ activeIds rows))))
  | .prune (id :: left) => ({ g with providers := g.providers.remove id }, some (.prune left))
  | .prune [] => (g, none)

/-- The gateway that a call standing in this phase has made of the one it found. -/
inductive At (before : Gateway) : RebuildPhase → Gateway → Prop
  | register {done left : List BuiltRow} (h : done ++ left = rows) :
    At before (.register left) (before.registerClients done)
  | insertKeys {done left : List (String × String)}
    (happly : Gateway.keepsPrevious rows onEmpty = false) (h : done ++ left = newKeys rows) :
    At before (.insertKeys left) ((before.registerClients rows).insertKeys done)
  | retainKeys (happly : Gateway.keepsPrevious rows onEmpty = false) :
    At before .retainKeys ((before.registerClients rows).insertKeys (newKeys rows))
  | swapTargets (happly : Gateway.keepsPrevious rows onEmpty = false) :
    At before .swapTargets ((before.registerClients rows).replaceKeys rows)
  | retainBreakers (happly : Gateway.keepsPrevious rows onEmpty = false) :
    At before (.retainBreakers (targetIds before.targets))
      (((before.registerClients rows).replaceKeys rows).swapTargets rows)
  | prune {done left : List String} (happly : Gateway.keepsPrevious rows onEmpty = false)
    (h : done ++ left = Gateway.staleIds before.targets rows) :
    At before (.prune left)
      (((((before.registerClients rows).replaceKeys rows).swapTargets rows).retainBreakers
        rows).pruneClients done)

namespace At

variable {rows onEmpty} {before g : Gateway} {phase phase' : RebuildPhase}

/-- A step leads to where the next phase stands, or to the end of the call. -/
theorem step (h : At rows onEmpty before phase g) :
    match phase.step rows onEmpty g with
    | (g', some phase') => At rows onEmpty before phase' g'
    | (g', none) => g' = before.rebuildRows rows onEmpty := by
  cases h with
  | @register done left h =>
    cases left with
    | nil =>
      -- all clients are registered: the early exit, or on to the keys
      obtain rfl : done = rows := by simpa using h
      rw [RebuildPhase.step]
      cases hkeep : Gateway.keepsPrevious done onEmpty with
      | true =>
        rw [if_pos rfl]
        exact (Gateway.rebuildRows_kept hkeep).symm
      | false =>
        rw [if_neg Bool.false_ne_true]
        exact @At.insertKeys _ _ _ [] _ hkeep rfl
    | cons row left =>
      have hnext :
          At rows onEmpty before (.register left) (before.registerClients (done ++ [row])) :=
        .register (by rw [← h, List.append_assoc]; rfl)
      rwa [Gateway.registerClients_concat] at hnext
  | @insertKeys done left happly h =>
    cases left with
    | nil =>
      obtain rfl : done = newKeys rows := by simpa using h
      exact .retainKeys happly
    | cons entry left =>
      have hnext : At rows onEmpty before (.insertKeys left)
          ((before.registerClients rows).insertKeys (done ++ [entry])) :=
        .insertKeys happly (by rw [← h, List.append_assoc]; rfl)
      rwa [Gateway.insertKeys_concat] at hnext
  | retainKeys happly => exact .swapTargets happly
  | swapTargets happly => exact .retainBreakers happly
  | retainBreakers happly => exact @At.prune _ _ _ [] _ happly rfl
  | @prune done left happly h =>
    cases left with
    | nil =>
      obtain rfl : done = Gateway.staleIds before.targets rows := by simpa using h
      exact (Gateway.rebuildRows_applied happly).symm
    | cons id left =>
      have hnext : At rows onEmpty before (.prune left) (Gateway.pruneClients _ (done ++ [id])) :=
        .prune happly (by rw [← h, List.append_assoc]; rfl)
      rwa [Gateway.pruneClients_concat] at hnext

/-- **A call that returns has done what the uninterrupted call does.** -/
theorem returns {registry : ProviderRegistry} {models : List Model} {endpoints : List ModelEndpoint}
    {g' : Gateway} (h : At (buildRows registry models endpoints) onEmpty before phase g)
    (hstep : phase.step (buildRows registry models endpoints) onEmpty g = (g', none)) :
    g' = (before.rebuildTargetsFromDb registry models endpoints onEmpty).1 := by
  have hreturn := h.step
  rw [hstep] at hreturn
  rw [Gateway.rebuildTargetsFromDb_fst]
  exact hreturn

end At

end RebuildPhase

/-! ### One endpoint while a call runs -/

section Rows

variable {rows : List BuiltRow} {id : String}

theorem row_unique (hnodup : (activeIds rows).Nodup) {row row' : BuiltRow} (hrow : row ∈ rows)
    (hrow' : row' ∈ rows) (hid : row.endpoint.id = row'.endpoint.id) : row = row' :=
  List.inj_on_of_nodup_map hnodup hrow hrow' hid

/-- Tables with primary keys yield no endpoint twice. -/
theorem nodup_activeIds_buildRows (registry : ProviderRegistry) {models : List Model}
    {endpoints : List ModelEndpoint} (hmodels : (models.map (·.id)).Nodup)
    (hendpoints : (endpoints.map (·.id)).Nodup) :
    (activeIds (buildRows registry models endpoints)).Nodup := by
  have hpairs : ((enabledEndpoints models endpoints).map (·.2.id)).Nodup := by
    rw [enabledEndpoints, List.map_flatMap, List.nodup_flatMap]
    refine ⟨fun model _ ↦ ?_, ?_⟩
    · rw [List.map_map]
      exact hendpoints.sublist (List.filter_sublist.map _)
    · refine ((List.pairwise_map.1 hmodels).filter _).imp fun {m m'} hne ↦ ?_
      refine List.disjoint_left.2 ?_
      intro id hid hid'
      simp only [List.map_map, List.mem_map, List.mem_filter, Bool.and_eq_true, beq_iff_eq,
        Function.comp_apply] at hid hid'
      obtain ⟨e, ⟨hmem, hmodel, -⟩, rfl⟩ := hid
      obtain ⟨e', ⟨hmem', hmodel', -⟩, hid'⟩ := hid'
      obtain rfl := List.inj_on_of_nodup_map hendpoints hmem' hmem hid'
      exact hne (hmodel.symm.trans hmodel')
  rw [activeIds, List.Nodup, List.pairwise_map, buildRows, List.pairwise_filterMap]
  refine (List.pairwise_map.1 hpairs).imp fun {p q} hne row hrow row' hrow' ↦ ?_
  split at hrow <;> cases hrow
  split at hrow' <;> cases hrow'
  exact hne

theorem mem_newKeys {key : String} :
    (id, key) ∈ newKeys rows ↔
      ∃ row ∈ rows, row.endpoint.id = id ∧ row.endpoint.storedKey = some key := by
  simp only [newKeys, List.mem_filterMap, Option.map_eq_some_iff, Prod.mk.injEq]
  constructor
  · rintro ⟨row, hrow, key', hkey, hid, rfl⟩
    exact ⟨row, hrow, hid, hkey⟩
  · rintro ⟨row, hrow, hid, hkey⟩
    exact ⟨row, hrow, key, hkey, hid, rfl⟩

end Rows

namespace Gateway

variable {before g : Gateway} {rows : List BuiltRow} {id : String}

theorem get_providers_registerClients_of_mem (h : id ∈ activeIds rows) :
    ∃ row ∈ rows, row.endpoint.id = id ∧
      (g.registerClients rows).providers.get id = some row.client := by
  rw [← newClients_map_fst] at h
  obtain ⟨client, hmem, hget⟩ := KeyMap.get_insertAll_of_mem (m := g.providers) h
  obtain ⟨row, hrow, heq⟩ := List.mem_map.1 hmem
  obtain ⟨rfl, rfl⟩ := Prod.mk.inj heq
  exact ⟨row, hrow, rfl, hget⟩

theorem get_providers_registerClients_of_notMem (h : id ∉ activeIds rows) :
    (g.registerClients rows).providers.get id = g.providers.get id :=
  KeyMap.get_insertAll_of_notMem (by rwa [newClients_map_fst])

/-- A key that has been inserted is the one its row stores. -/
theorem get_providerKeys_insertKeys {keys : List (String × String)} (hkeys : keys ⊆ newKeys rows) :
    (g.insertKeys keys).providerKeys.get id = g.providerKeys.get id ∨
      ∃ row ∈ rows, row.endpoint.id = id ∧
        (g.insertKeys keys).providerKeys.get id = row.endpoint.storedKey := by
  by_cases h : id ∈ keys.map Prod.fst
  · obtain ⟨key, hmem, hget⟩ := KeyMap.get_insertAll_of_mem (m := g.providerKeys) h
    obtain ⟨row, hrow, hid, hkey⟩ := mem_newKeys.1 (hkeys hmem)
    exact .inr ⟨row, hrow, hid, hget.trans hkey.symm⟩
  · exact .inl (KeyMap.get_insertAll_of_notMem h)

theorem get_providerKeys_replaceKeys_of_notMem (h : id ∉ activeIds rows) :
    (g.replaceKeys rows).providerKeys.get id = none := by
  have hnew : id ∉ (newKeys rows).map Prod.fst := by
    rw [mem_newKeys_map_fst]
    rintro ⟨row, hrow, rfl, -⟩
    exact h (List.mem_map_of_mem hrow)
  rw [replaceKeys, KeyMap.get_retain, if_neg (by simpa using hnew)]

theorem get_providerKeys_replaceKeys_of_mem (hnodup : (activeIds rows).Nodup) {row : BuiltRow}
    (hrow : row ∈ rows) :
    (g.replaceKeys rows).providerKeys.get row.endpoint.id = row.endpoint.storedKey := by
  rw [replaceKeys, KeyMap.get_retain]
  by_cases hnew : row.endpoint.id ∈ (newKeys rows).map Prod.fst
  · obtain ⟨key, hmem, hget⟩ := KeyMap.get_insertAll_of_mem (m := g.providerKeys) hnew
    obtain ⟨row', hrow', hid, hkey⟩ := mem_newKeys.1 hmem
    obtain rfl := row_unique hnodup hrow' hrow hid
    rw [if_pos (by simpa using hnew), hget, hkey]
  · rw [if_neg (by simpa using hnew)]
    rw [mem_newKeys_map_fst] at hnew
    cases hkey : row.endpoint.storedKey with
    | none => rfl
    | some key => exact absurd ⟨row, hrow, rfl, by rw [hkey]; rfl⟩ hnew

/-- An active endpoint after the call. -/
theorem get_applyRows_of_mem (hnodup : (activeIds rows).Nodup) (h : id ∈ activeIds rows) :
    ∃ row ∈ rows, row.endpoint.id = id ∧ (g.applyRows rows).providers.get id = some row.client ∧
      (g.applyRows rows).providerKeys.get id = row.endpoint.storedKey := by
  obtain ⟨row, hrow, rfl, hclient⟩ := get_providers_registerClients_of_mem (g := g) h
  have hspared : row.endpoint.id ∉ staleIds g.targets rows := by
    intro hstale
    exact absurd h (by simpa using (List.mem_filter.1 hstale).2)
  refine ⟨row, hrow, rfl, ?_, get_providerKeys_replaceKeys_of_mem hnodup hrow⟩
  refine (KeyMap.get_removeAll _ _ _).trans ?_
  rw [if_neg hspared]
  exact hclient

/-- What the client and key maps hold for an endpoint while a call that found `before` runs. -/
inductive Seen (before : Gateway) (rows : List BuiltRow) (g : Gateway) (id : String) : Prop
  | untouched (hclient : g.providers.get id = before.providers.get id)
    (hkey : g.providerKeys.get id = before.providerKeys.get id)
  /-- The client of the new row, the key of the old one. -/
  | registered (row : BuiltRow) (hrow : row ∈ rows) (hid : row.endpoint.id = id)
    (hclient : g.providers.get id = some row.client)
    (hkey : g.providerKeys.get id = before.providerKeys.get id)
  | renewed (row : BuiltRow) (hrow : row ∈ rows) (hid : row.endpoint.id = id)
    (hclient : g.providers.get id = some row.client)
    (hkey : g.providerKeys.get id = row.endpoint.storedKey)
  /-- The client of the old row, and no key any more. -/
  | dropped (hid : id ∉ activeIds rows) (hclient : g.providers.get id = before.providers.get id)
    (hkey : g.providerKeys.get id = none)
  | pruned (hid : id ∉ activeIds rows) (hclient : g.providers.get id = none)

/-- Once the keys are replaced, only the clients of inactive endpoints are still to settle. -/
theorem seen_of_replaced (hnodup : (activeIds rows).Nodup)
    (hclient : g.providers.get id = (before.registerClients rows).providers.get id)
    (hkey : g.providerKeys.get id =
      ((before.registerClients rows).replaceKeys rows).providerKeys.get id) :
    Seen before rows g id := by
  by_cases hid : id ∈ activeIds rows
  · obtain ⟨row, hrow, rfl, hnew⟩ := get_providers_registerClients_of_mem (g := before) hid
    exact .renewed row hrow rfl (hclient.trans hnew)
      (hkey.trans (get_providerKeys_replaceKeys_of_mem hnodup hrow))
  · exact .dropped hid (hclient.trans (get_providers_registerClients_of_notMem hid))
      (hkey.trans (get_providerKeys_replaceKeys_of_notMem hid))

end Gateway

namespace RebuildPhase.At

variable {rows : List BuiltRow} {onEmpty : OnEmpty} {before g : Gateway} {phase : RebuildPhase}

/-- While a call inserts keys. -/
private theorem seen_insertKeys (hnodup : (activeIds rows).Nodup) {keys : List (String × String)}
    (hkeys : keys ⊆ newKeys rows) (id : String) :
    Gateway.Seen before rows ((before.registerClients rows).insertKeys keys) id := by
  let g := before.registerClients rows
  have hkey : (g.insertKeys keys).providerKeys.get id = g.providerKeys.get id ∨
      ∃ row ∈ rows, row.endpoint.id = id ∧
        (g.insertKeys keys).providerKeys.get id = row.endpoint.storedKey :=
    Gateway.get_providerKeys_insertKeys hkeys
  by_cases hid : id ∈ activeIds rows
  · obtain ⟨row, hrow, rfl, hclient⟩ :=
      Gateway.get_providers_registerClients_of_mem (g := before) hid
    rcases hkey with hkey | ⟨row', hrow', hid', hkey⟩
    · exact .registered row hrow rfl hclient hkey
    · obtain rfl := row_unique hnodup hrow' hrow hid'
      exact .renewed row' hrow' rfl hclient hkey
  · rcases hkey with hkey | ⟨row, hrow, rfl, -⟩
    · exact .untouched (Gateway.get_providers_registerClients_of_notMem hid) hkey
    · exact absurd (List.mem_map_of_mem hrow) hid

theorem seen (hnodup : (activeIds rows).Nodup) (h : At rows onEmpty before phase g) (id : String) :
    Gateway.Seen before rows g id := by
  cases h with
  | @register done left h =>
    by_cases hid : id ∈ activeIds done
    · obtain ⟨row, hrow, hid, hclient⟩ :=
        Gateway.get_providers_registerClients_of_mem (g := before) hid
      exact .registered row (h ▸ List.mem_append_left left hrow) hid hclient rfl
    · exact .untouched (Gateway.get_providers_registerClients_of_notMem hid) rfl
  | insertKeys happly h => exact seen_insertKeys hnodup (h ▸ List.subset_append_left _ _) id
  | retainKeys happly => exact seen_insertKeys hnodup (List.Subset.refl _) id
  | swapTargets happly => exact Gateway.seen_of_replaced hnodup rfl rfl
  | retainBreakers happly => exact Gateway.seen_of_replaced hnodup rfl rfl
  | @prune done left happly h =>
    have hget : (((((before.registerClients rows).replaceKeys rows).swapTargets
        rows).retainBreakers rows).pruneClients done).providers.get id =
          if id ∈ done then none else (before.registerClients rows).providers.get id :=
      KeyMap.get_removeAll _ _ _
    by_cases hid : id ∈ done
    · have hstale : id ∈ Gateway.staleIds before.targets rows := h ▸ List.mem_append_left left hid
      exact .pruned (by simpa using (List.mem_filter.1 hstale).2) (by rw [hget, if_pos hid])
    · exact Gateway.seen_of_replaced hnodup (by rw [hget, if_neg hid]) rfl

end RebuildPhase.At

end Himadri
