import Himadri.Admin.KeyBackends
import Himadri.Transition.System
import Mathlib.Data.List.Nodup

/-!
# Runs of the three backends of the API keys

The same operations on the three backends, with the same clock, ids and secrets (`KeyStores.runs`),
and when an operation asks for nothing in which they differ (`ApiKeyStore.Common`): no key is
presented at the very instant it expires, and what a request sets is what every backend can keep, a
time of expiry in whole microseconds of a year of four digits, texts that fit their columns, ids as
they were handed out.

The store in memory is the measure: its index leads to its keys (`ApiKeyStore.Indexed`), and a table
keeps them row by row (`Tabulates`).
-/

open Chrono

namespace Himadri

/-! ### What the backends rely on -/

/-- What the drivers make of instants and ids. -/
structure SqlDrivers where
  /-- `Uuid::parse_str`, and the UUID printed. -/
  parseUuid : String → Option String
  /-- An instant as a column of Postgres keeps it. -/
  timestamptz : DateTime → Option DateTime
  /-- `sqlite_time::parse`. -/
  parse : String → Option DateTime
  timestamptz_plain : ∀ t : DateTime, t.Plain → timestamptz t = some t
  parse_toRfc3339 : ∀ t : DateTime, t.FourDigitYear → parse (toRfc3339 t) = some t

/-! ### Operations and what is answered -/

/-- One call of a store, with what it generates and the clock it reads. -/
inductive KeyOp
  | create (id uuid : String) (now : DateTime) (request : KeySettings DateTime)
  | get (id : String)
  | update (id : String) (request : UpdateKeyRequest)
  | validate (token : String) (now : DateTime)
  | revoke (id : String)
  | rotate (id uuid : String)
  | delete (id : String)

/-- The id a call is about, where it is about one. -/
def KeyOp.id? : KeyOp → Option String
  | .create _ _ _ _ | .validate _ _ => none
  | .get id | .update id _ | .revoke id | .rotate id _ | .delete id => some id

/-- What an answer says of a key, but for when it was created and how it was used. -/
structure KeyView where
  id : String
  key : String
  enabled : Bool
  settings : KeySettings DateTime

def KeyRecord.view (key : KeyRecord DateTime) : KeyView where
  id := key.id
  key := key.key
  enabled := key.enabled
  settings := key.toKeySettings

/-- An answer: no such row and a row not found are one. -/
inductive KeyOutcome
  | found (key : KeyView)
  | done
  | absent
  | failed

namespace KeyOutcome

def ofKey : Option (KeyRecord DateTime) → KeyOutcome
  | none => .absent
  | some key => .found key.view

def ofBool : Bool → KeyOutcome
  | false => .absent
  | true => .done

/-- The table after a call, and its answer. -/
def settle {ρ α : Type} (rows : ρ) (answer : α → KeyOutcome) :
    Except AdminError (ρ × α) → ρ × KeyOutcome
  | .ok (rows', a) => (rows', answer a)
  | .error .notFound => (rows, .absent)
  | .error _ => (rows, .failed)

end KeyOutcome

open KeyOutcome

section Runs

variable (sha256 : String → String) (drivers : SqlDrivers)

/-- A call of `ApiKeyStore`, which never fails. -/
def ApiKeyStore.run (store : ApiKeyStore) : KeyOp → ApiKeyStore × KeyOutcome
  | .create id uuid now request =>
    settle store (ofKey ∘ some) (.ok (store.create sha256 id uuid now request))
  | .get id => settle store ofKey (.ok (store, store.get id))
  | .update id request => settle store ofKey (.ok (store.update id request))
  | .validate token now => settle store ofKey (.ok (store.validate sha256 token now))
  | .revoke id => settle store ofBool (.ok (store.revoke id))
  | .rotate id uuid => settle store ofKey (.ok (store.rotate sha256 id uuid))
  | .delete id => settle store ofBool (.ok (store.delete id))

/-- A call of `PostgresStore`. -/
def PostgresStore.run (rows : List (KeyRecord DateTime)) :
    KeyOp → List (KeyRecord DateTime) × KeyOutcome
  | .create id uuid now request =>
    settle rows (ofKey ∘ some) (create sha256 drivers.timestamptz rows id uuid now request)
  | .get id => settle rows ofKey ((get drivers.parseUuid rows id).map (rows, ·))
  | .update id request =>
    settle rows ofKey (update drivers.parseUuid drivers.timestamptz rows id request)
  | .validate token now => settle rows ofKey (validate sha256 rows token now)
  | .revoke id => settle rows ofBool (revoke drivers.parseUuid rows id)
  | .rotate id uuid => settle rows ofKey (rotate sha256 drivers.parseUuid rows id uuid)
  | .delete id => settle rows ofBool (delete drivers.parseUuid rows id)

/-- A call of `SqliteStore`. -/
def SqliteStore.run (rows : List (KeyRecord String)) :
    KeyOp → List (KeyRecord String) × KeyOutcome
  | .create id uuid now request =>
    settle rows (ofKey ∘ some) (create sha256 drivers.parse rows id uuid now request)
  | .get id => settle rows ofKey (.ok (rows, get drivers.parse rows id))
  | .update id request => settle rows ofKey (update drivers.parse rows id request)
  | .validate token now => settle rows ofKey (validate sha256 drivers.parse rows token now)
  | .revoke id => settle rows ofBool (revoke rows id)
  | .rotate id uuid => settle rows ofKey (rotate sha256 drivers.parse rows id uuid)
  | .delete id => settle rows ofBool (.ok (delete rows id))

/-- Every backend can keep the settings. -/
structure KeySettings.Fits (settings : KeySettings DateTime) : Prop where
  name : PostgresStore.varchar settings.name
  orgId : settings.orgId.all PostgresStore.varchar
  teamId : settings.teamId.all PostgresStore.varchar
  userId : settings.userId.all PostgresStore.varchar
  expiresAt : ∀ e ∈ settings.expiresAt, e.Plain

/-- The id is written as it was handed out, or is none at all. -/
def SqlDrivers.Canonical (id : String) : Prop :=
  ∀ uuid, drivers.parseUuid id = some uuid → uuid = id

namespace ApiKeyStore

/-- What an operation generates is new, and an id is printed as it is parsed. -/
def Generated (store : ApiKeyStore) : KeyOp → Prop
  | .create id uuid _ _ =>
    drivers.parseUuid id = some id ∧ store.keys.get id = none ∧
      store.keysByKey.get (hashApiKey sha256 (generateApiKey uuid)) = none
  | .rotate _ uuid => store.keysByKey.get (hashApiKey sha256 (generateApiKey uuid)) = none
  | _ => True

/-- The operation asks for nothing in which the backends differ. -/
def Common (store : ApiKeyStore) : KeyOp → Prop
  | .create _ _ _ request => request.Fits
  | .update id request =>
    drivers.Canonical id ∧ ∀ key ∈ store.keys.get id, (request.settings key.toKeySettings).Fits
  | .validate token now =>
    token.toList.contains (.ofNat 0) = false ∧ now.FourDigitYear ∧
      ∀ id ∈ store.keysByKey.get (hashApiKey sha256 token), ∀ key ∈ store.keys.get id,
        key.expiresAt ≠ some now
  | .get id | .revoke id | .rotate id _ | .delete id => drivers.Canonical id

end ApiKeyStore

/-- The three backends of one run. -/
structure KeyStores where
  memory : ApiKeyStore
  postgres : List (KeyRecord DateTime)
  sqlite : List (KeyRecord String)

namespace KeyStores

/-- Before any key. -/
def new : KeyStores := ⟨⟨.empty, .empty⟩, [], []⟩

/-- One operation, on each of the backends. -/
def next (s : KeyStores) (op : KeyOp) : KeyStores where
  memory := (s.memory.run sha256 op).1
  postgres := (PostgresStore.run sha256 drivers s.postgres op).1
  sqlite := (SqliteStore.run sha256 drivers s.sqlite op).1

/-- The runs, in which nothing is generated twice. -/
def runs : TransitionSystem KeyStores KeyOp where
  Init s := s = new
  Step s op s' := s.memory.Generated sha256 drivers op ∧ s' = s.next sha256 drivers op

/-- The backends answer the operation alike. -/
def AnswerAlike (s : KeyStores) (op : KeyOp) : Prop :=
  (PostgresStore.run sha256 drivers s.postgres op).2 = (s.memory.run sha256 op).2 ∧
    (SqliteStore.run sha256 drivers s.sqlite op).2 = (s.memory.run sha256 op).2

end KeyStores

end Runs

/-! ### One table -/

/-- The row keeps the key, with its time of expiry encoded. -/
structure Mirrors {τ : Type} (enc : DateTime → τ) (k : KeyRecord DateTime) (row : KeyRecord τ) :
    Prop where
  key : row.key = k.key
  enabled : row.enabled = k.enabled
  settings : row.toKeySettings = k.expiring (k.expiresAt.map enc)

/-- The rows keep the keys, each under its id. -/
structure Tabulates {τ : Type} (enc : DateTime → τ) (keys : KeyMap String (KeyRecord DateTime))
    (rows : List (KeyRecord τ)) : Prop where
  ids : (rows.map (·.id)).Nodup
  mirrors : ∀ row ∈ rows, ∃ key ∈ keys.get row.id, Mirrors enc key row
  covers : ∀ id, ∀ key ∈ keys.get id, ∃ row ∈ rows, row.id = id

/-- No two keys are stored alike. -/
def KeysDiffer (keys : KeyMap String (KeyRecord DateTime)) : Prop :=
  ∀ id id', ∀ key ∈ keys.get id, ∀ key' ∈ keys.get id', key.key = key'.key → id = id'

namespace Tabulates

variable {τ : Type} {enc : DateTime → τ} {keys : KeyMap String (KeyRecord DateTime)}
  {rows : List (KeyRecord τ)} {id : String} {key key' : KeyRecord DateTime}

theorem empty (enc : DateTime → τ) : Tabulates enc .empty [] where
  ids := List.nodup_nil
  mirrors _ h := by cases h
  covers _ _ h := by cases h

theorem keys_nodup (h : Tabulates enc keys rows) (hdiffer : KeysDiffer keys) :
    (rows.map (·.key)).Nodup := by
  refine List.Nodup.map_on (fun row hrow row' hrow' heq ↦ ?_) (List.Nodup.of_map _ h.ids)
  obtain ⟨k, hk, hmirrors⟩ := h.mirrors row hrow
  obtain ⟨k', hk', hmirrors'⟩ := h.mirrors row' hrow'
  have hid : row.id = row'.id :=
    hdiffer _ _ k hk k' hk' (by rw [← hmirrors.key, ← hmirrors'.key, heq])
  exact List.inj_on_of_nodup_map h.ids hrow hrow' hid

theorem select_eq_none (h : Tabulates enc keys rows) (hid : keys.get id = none) :
    KeyTable.select rows id = none := by
  rw [KeyTable.select, List.find?_eq_none]
  rintro row hrow heq
  obtain ⟨k, hk, -⟩ := h.mirrors row hrow
  rw [beq_iff_eq.1 heq, hid] at hk
  cases hk

/-- No row has the id. -/
theorem select_none (h : Tabulates enc keys rows) (hid : keys.get id = none) :
    ∀ row ∈ rows, (row.id == id) = false := by
  have hnone := List.find?_eq_none.1 (h.select_eq_none hid)
  exact fun row hrow ↦ Bool.eq_false_iff.2 (hnone row hrow)

theorem find?_eq_some (h : Tabulates enc keys rows) (hkey : keys.get id = some key)
    {selects : KeyRecord τ → Bool} (hselects : ∀ row ∈ rows, selects row = (row.id == id)) :
    ∃ row, rows.find? selects = some row ∧ row ∈ rows ∧ row.id = id ∧ Mirrors enc key row := by
  obtain ⟨row, hrow, hid⟩ := h.covers id key hkey
  have hsome : (rows.find? selects).isSome :=
    List.find?_isSome.2 ⟨row, hrow, by rw [hselects row hrow, beq_iff_eq, hid]⟩
  obtain ⟨found, hfound⟩ := Option.isSome_iff_exists.1 hsome
  have hmem := List.mem_of_find?_eq_some hfound
  have hfoundId : found.id = id := by
    rw [← beq_iff_eq, ← hselects found hmem]
    exact List.find?_some hfound
  obtain ⟨k, hk, hmirrors⟩ := h.mirrors found hmem
  rw [hfoundId, hkey] at hk
  obtain rfl := Option.some.inj hk
  exact ⟨found, hfound, hmem, hfoundId, hmirrors⟩

theorem select_eq_some (h : Tabulates enc keys rows) (hkey : keys.get id = some key) :
    ∃ row, KeyTable.select rows id = some row ∧ row.id = id ∧ Mirrors enc key row := by
  obtain ⟨row, hfind, -, hid, hmirrors⟩ := h.find?_eq_some hkey fun row _ ↦ rfl
  exact ⟨row, hfind, hid, hmirrors⟩

/-- `INSERT` of a new key. -/
theorem insert (h : Tabulates enc keys rows) (hid : keys.get id = none) {row : KeyRecord τ}
    (hrow : row.id = id) (hmirrors : Mirrors enc key row)
    (hnew : ∀ id', ∀ k ∈ keys.get id', k.key ≠ key.key) :
    KeyTable.insert rows row = .ok (rows ++ [row]) ∧
      Tabulates enc (keys.insert id key) (rows ++ [row]) := by
  have hother (r : KeyRecord τ) (hr : r ∈ rows) : r.id ≠ id ∧ r.key ≠ row.key := by
    obtain ⟨k, hk, hm⟩ := h.mirrors r hr
    refine ⟨KeyMap.ne_of_get hk hid, ?_⟩
    rw [hm.key, hmirrors.key]
    exact hnew _ k hk
  constructor
  · refine if_neg fun hany ↦ ?_
    obtain ⟨r, hr, heq⟩ := List.any_eq_true.1 hany
    rw [Bool.or_eq_true, beq_iff_eq, beq_iff_eq, hrow] at heq
    exact heq.elim (hother r hr).1 (hother r hr).2
  · constructor
    · rw [List.map_append, List.map_singleton]
      refine List.Nodup.append h.ids (List.nodup_singleton _) fun i hi hi' ↦ ?_
      obtain ⟨r, hr, rfl⟩ := List.mem_map.1 hi
      rw [List.mem_singleton, hrow] at hi'
      exact (hother r hr).1 hi'
    · intro r hr
      rcases List.mem_append.1 hr with hr | hr
      · obtain ⟨k, hk, hm⟩ := h.mirrors r hr
        exact ⟨k, (KeyMap.get_insert_of_ne (hother r hr).1).trans hk, hm⟩
      · obtain rfl := List.mem_singleton.1 hr
        exact ⟨key, by rw [hrow]; exact KeyMap.get_insert_self .., hmirrors⟩
    · intro id' k hk
      rw [KeyMap.get_insert] at hk
      split at hk
      · next heq =>
        exact ⟨row, List.mem_append_right _ (List.mem_singleton_self _), hrow.trans heq.symm⟩
      · obtain ⟨r, hr, hrid⟩ := h.covers id' k hk
        exact ⟨r, List.mem_append_left _ hr, hrid⟩

/-- `UPDATE` of the row of one key. -/
theorem update (h : Tabulates enc keys rows) (hkey : keys.get id = some key)
    {selects : KeyRecord τ → Bool} (hselects : ∀ row ∈ rows, selects row = (row.id == id))
    {f : KeyRecord τ → KeyRecord τ} (hid : ∀ row, (f row).id = row.id)
    (hf : ∀ row, Mirrors enc key row → Mirrors enc key' (f row))
    (hdiffer : KeysDiffer (keys.insert id key')) :
    ∃ rows', KeyTable.update rows selects f = .ok rows' ∧
      Tabulates enc (keys.insert id key') rows' := by
  have htable : Tabulates enc (keys.insert id key')
      (rows.map fun row ↦ if selects row then f row else row) := by
    constructor
    · rw [List.map_map]
      refine (congrArg List.Nodup (List.map_congr_left fun row _ ↦ ?_)).mpr h.ids
      show (if selects row then f row else row).id = row.id
      split
      · exact hid row
      · rfl
    · intro row' hrow'
      obtain ⟨row, hrow, rfl⟩ := List.mem_map.1 hrow'
      obtain ⟨k, hk, hm⟩ := h.mirrors row hrow
      rw [hselects row hrow]
      split
      · next heq =>
        rw [beq_iff_eq] at heq
        rw [heq, hkey] at hk
        obtain rfl := Option.some.inj hk
        refine ⟨key', ?_, hf row hm⟩
        rw [hid, heq]
        exact KeyMap.get_insert_self ..
      · next hne =>
        rw [beq_iff_eq] at hne
        exact ⟨k, (KeyMap.get_insert_of_ne hne).trans hk, hm⟩
    · intro id' k hk
      have hthere : ∃ k₀, keys.get id' = some k₀ := by
        rw [KeyMap.get_insert] at hk
        split at hk
        · next heq => exact ⟨key, heq ▸ hkey⟩
        · exact ⟨k, hk⟩
      obtain ⟨k₀, hk₀⟩ := hthere
      obtain ⟨row, hrow, hrid⟩ := h.covers id' k₀ hk₀
      refine ⟨_, List.mem_map_of_mem hrow, ?_⟩
      split
      · rw [hid, hrid]
      · exact hrid
  exact ⟨_, if_pos (htable.keys_nodup hdiffer), htable⟩

/-- `UPDATE` of no row. -/
theorem update_none (h : Tabulates enc keys rows) (hdiffer : KeysDiffer keys)
    {selects : KeyRecord τ → Bool} (hselects : ∀ row ∈ rows, selects row = false)
    (f : KeyRecord τ → KeyRecord τ) : KeyTable.update rows selects f = .ok rows := by
  have hsame : (rows.map fun row ↦ if selects row then f row else row) = rows := by
    refine (List.map_congr_left fun row hrow ↦ ?_).trans (List.map_id rows)
    rw [hselects row hrow]
    rfl
  rw [KeyTable.update, hsame]
  exact if_pos (h.keys_nodup hdiffer)

theorem delete (h : Tabulates enc keys rows) (id : String) :
    Tabulates enc (keys.remove id) (KeyTable.delete rows id) where
  ids := h.ids.sublist (List.filter_sublist.map _)
  mirrors row hrow := by
    obtain ⟨hrow, hne⟩ := List.mem_filter.1 hrow
    obtain ⟨k, hk, hm⟩ := h.mirrors row hrow
    exact ⟨k, (KeyMap.get_remove_of_ne (bne_iff_ne.1 hne)).trans hk, hm⟩
  covers id' k hk := by
    rw [KeyMap.get_remove] at hk
    split at hk
    · cases hk
    · next hne =>
      obtain ⟨row, hrow, hid⟩ := h.covers id' k hk
      refine ⟨row, List.mem_filter.2 ⟨hrow, ?_⟩, hid⟩
      rw [hid]
      exact bne_iff_ne.2 hne

end Tabulates

/-! ### The store in memory -/

/-- The keys of the store are found by their hashes, and every backend can keep them. -/
structure ApiKeyStore.Indexed (sha256 : String → String) (drivers : SqlDrivers)
    (store : ApiKeyStore) : Prop where
  ids : ∀ id, ∀ k ∈ store.keys.get id, k.id = id ∧ drivers.parseUuid id = some id
  index : ∀ hash id, store.keysByKey.get hash = some id ↔ ∃ k ∈ store.keys.get id, k.key = hash
  hashed : ∀ id, ∀ k ∈ store.keys.get id, ∃ uuid, k.key = hashApiKey sha256 (generateApiKey uuid)
  fits : ∀ id, ∀ k ∈ store.keys.get id, k.Fits

namespace ApiKeyStore.Indexed

variable {sha256 : String → String} {drivers : SqlDrivers} {store : ApiKeyStore}
  (h : store.Indexed sha256 drivers) {id : String} {k k' : KeyRecord DateTime}
include h

theorem differ : KeysDiffer store.keys := by
  intro id id' k hk k' hk' heq
  have hid := (h.index k.key id).2 ⟨k, hk, rfl⟩
  have hid' := (h.index k.key id').2 ⟨k', hk', heq.symm⟩
  exact Option.some.inj (hid.symm.trans hid')

/-- A hash that is not in the index is no key's. -/
theorem ne_of_index {hash : String} (hhash : store.keysByKey.get hash = none) :
    ∀ id, ∀ k ∈ store.keys.get id, k.key ≠ hash := by
  intro id k hk heq
  rw [(h.index hash id).2 ⟨k, hk, heq⟩] at hhash
  cases hhash

/-- A new key. -/
theorem insert (hid : store.keys.get id = none) {hash : String}
    (hhash : store.keysByKey.get hash = none) (hkid : k.id = id)
    (huuid : drivers.parseUuid id = some id) (hkey : k.key = hash)
    (hhashed : ∃ uuid, hash = hashApiKey sha256 (generateApiKey uuid)) (hfits : k.Fits) :
    (ApiKeyStore.mk (store.keys.insert id k) (store.keysByKey.insert hash id)).Indexed
      sha256 drivers where
  ids id' k' hk' := by
    rw [KeyMap.get_insert] at hk'
    split at hk'
    · next heq =>
      obtain rfl := Option.some.inj hk'
      rw [heq]
      exact ⟨hkid, huuid⟩
    · exact h.ids id' k' hk'
  index hash' id' := by
    show (store.keysByKey.insert hash id).get hash' = some id' ↔
      ∃ k' ∈ (store.keys.insert id k).get id', k'.key = hash'
    rw [KeyMap.get_insert, KeyMap.get_insert]
    split <;> split
    · next heq heq' => simp [heq, heq', hkey]
    · next heq hne =>
      refine iff_of_false (fun hsome ↦ hne (Option.some.inj hsome).symm) ?_
      rintro ⟨k', hk', hkey'⟩
      exact h.ne_of_index hhash id' k' hk' (hkey'.trans heq)
    · next hne heq =>
      refine iff_of_false (fun hsome ↦ ?_) ?_
      · obtain ⟨k', hk', -⟩ := (h.index hash' id').1 hsome
        rw [heq, hid] at hk'
        cases hk'
      · rintro ⟨k', hk', hkey'⟩
        obtain rfl := Option.some.inj hk'
        exact hne (hkey'.symm.trans hkey)
    · exact h.index hash' id'
  hashed id' k' hk' := by
    rw [KeyMap.get_insert] at hk'
    split at hk'
    · obtain rfl := Option.some.inj hk'
      rw [hkey]
      exact hhashed
    · exact h.hashed id' k' hk'
  fits id' k' hk' := by
    rw [KeyMap.get_insert] at hk'
    split at hk'
    · obtain rfl := Option.some.inj hk'
      exact hfits
    · exact h.fits id' k' hk'

/-- A key that keeps its id and its hash. -/
theorem amend (k' : KeyRecord DateTime) (hk : store.keys.get id = some k) (hid : k'.id = k.id)
    (hkey : k'.key = k.key) (hfits : k'.Fits) :
    (ApiKeyStore.mk (store.keys.insert id k') store.keysByKey).Indexed sha256 drivers where
  ids id' k₁ hk₁ := by
    rw [KeyMap.get_insert] at hk₁
    split at hk₁
    · next heq =>
      obtain rfl := Option.some.inj hk₁
      rw [hid, heq]
      exact h.ids id k hk
    · exact h.ids id' k₁ hk₁
  index hash id' := by
    show store.keysByKey.get hash = some id' ↔
      ∃ k₁ ∈ (store.keys.insert id k').get id', k₁.key = hash
    rw [h.index, KeyMap.get_insert]
    split
    · next heq => simp [heq, hk, hkey]
    · rfl
  hashed id' k₁ hk₁ := by
    rw [KeyMap.get_insert] at hk₁
    split at hk₁
    · obtain rfl := Option.some.inj hk₁
      rw [hkey]
      exact h.hashed id k hk
    · exact h.hashed id' k₁ hk₁
  fits id' k₁ hk₁ := by
    rw [KeyMap.get_insert] at hk₁
    split at hk₁
    · obtain rfl := Option.some.inj hk₁
      exact hfits
    · exact h.fits id' k₁ hk₁

theorem remove (hk : store.keys.get id = some k) :
    (ApiKeyStore.mk (store.keys.remove id) (store.keysByKey.remove k.key)).Indexed
      sha256 drivers where
  ids id' k₁ hk₁ := by
    rw [KeyMap.get_remove] at hk₁
    split at hk₁
    · cases hk₁
    · exact h.ids id' k₁ hk₁
  index hash id' := by
    show (store.keysByKey.remove k.key).get hash = some id' ↔
      ∃ k₁ ∈ (store.keys.remove id).get id', k₁.key = hash
    rw [KeyMap.get_remove, KeyMap.get_remove]
    split <;> split
    · simp
    · next heq hne =>
      refine iff_of_false (fun hsome ↦ (by cases hsome)) ?_
      rintro ⟨k₁, hk₁, hkey⟩
      exact hne (h.differ id' id k₁ hk₁ k hk (hkey.trans heq))
    · next hne heq =>
      refine iff_of_false (fun hsome ↦ ?_) (by simp)
      obtain ⟨k₁, hk₁, hkey⟩ := (h.index hash id').1 hsome
      rw [heq, hk] at hk₁
      obtain rfl := Option.some.inj hk₁
      exact hne hkey.symm
    · exact h.index hash id'
  hashed id' k₁ hk₁ := by
    rw [KeyMap.get_remove] at hk₁
    split at hk₁
    · cases hk₁
    · exact h.hashed id' k₁ hk₁
  fits id' k₁ hk₁ := by
    rw [KeyMap.get_remove] at hk₁
    split at hk₁
    · cases hk₁
    · exact h.fits id' k₁ hk₁

/-- Every operation keeps the index. -/
theorem run {op : KeyOp} (hgenerated : store.Generated sha256 drivers op)
    (hcommon : store.Common sha256 drivers op) :
    (store.run sha256 op).1.Indexed sha256 drivers := by
  cases op with
  | create id uuid now request =>
    obtain ⟨huuid, hid, hhash⟩ := hgenerated
    exact h.insert hid hhash rfl huuid rfl ⟨uuid, rfl⟩ hcommon
  | get id => exact h
  | update id request =>
    rcases hk : store.keys.get id with - | k
    · simp only [ApiKeyStore.run, settle, update, hk]
      exact h
    · simp only [ApiKeyStore.run, settle, update, hk]
      exact h.amend _ hk rfl rfl (hcommon.2 k hk)
  | validate token now =>
    simp only [ApiKeyStore.run, settle, validate]
    split
    · exact h
    · split
      · exact h
      · next k hk =>
        split
        · exact h
        · split
          · exact h
          · exact h.amend _ hk rfl rfl (h.fits _ k hk)
  | revoke id =>
    rcases hk : store.keys.get id with - | k
    · simp only [ApiKeyStore.run, settle, revoke, hk]
      exact h
    · simp only [ApiKeyStore.run, settle, revoke, hk]
      exact h.amend _ hk rfl rfl (h.fits id k hk)
  | rotate id uuid =>
    rcases hk : store.keys.get id with - | k
    · simp only [ApiKeyStore.run, settle, rotate, hk]
      exact h
    · simp only [ApiKeyStore.run, settle, rotate, hk]
      -- as if the key had been deleted and created again under its id
      obtain ⟨hid, huuid⟩ := h.ids id k hk
      have hhash : (store.keysByKey.remove k.key).get
          (hashApiKey sha256 (generateApiKey uuid)) = none := by
        rw [KeyMap.get_remove, hgenerated, ite_self]
      have hinsert := (h.remove hk).insert (KeyMap.get_remove_self ..) hhash
        (k := { k with key := hashApiKey sha256 (generateApiKey uuid) }) hid huuid rfl ⟨uuid, rfl⟩
        (h.fits id k hk)
      rwa [KeyMap.insert_remove] at hinsert
  | delete id =>
    rcases hk : store.keys.get id with - | k
    · simp only [ApiKeyStore.run, settle, delete, hk]
      exact h
    · simp only [ApiKeyStore.run, settle, delete, hk]
      exact h.remove hk

end ApiKeyStore.Indexed

end Himadri
