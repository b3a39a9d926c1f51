import Himadri.Admin.KeyTables

/-!
# What a run answers

Each of the two databases does what the store in memory does (`PostgresStore.run_follows`,
`SqliteStore.run_follows`): after an operation its table keeps the same keys, and it has answered
alike. So the three agree in every state of a run (`KeyStores.agree_invariant`).
-/

open Chrono

namespace Himadri

open KeyOutcome

/-! ### The tables -/

theorem KeySettings.expiring_self (settings : KeySettings DateTime) :
    settings.expiring settings.expiresAt = settings := rfl

theorem SqlDialect.isHashed_hashApiKey (dialect : SqlDialect) (sha256 : String → String)
    (key : String) : dialect.isHashed (hashApiKey sha256 key) = true := by
  cases dialect with
  | postgres =>
    rw [isHashed, Text.startsWith, hashApiKey, String.toList_append]
    exact List.isPrefixOf_iff_prefix.2 (List.prefix_append _ _)
  | sqlite =>
    rw [isHashed, Text.startsWith, Text.toList_toAsciiLowercase, hashApiKey, String.toList_append,
      List.map_append]
    exact List.isPrefixOf_iff_prefix.2 (List.prefix_append _ _)

/-- A call on a table has answered like one of the store in memory, and the table keeps its keys. -/
structure Follows {τ : Type} (enc : DateTime → τ) (call : List (KeyRecord τ) × KeyOutcome)
    (run : ApiKeyStore × KeyOutcome) : Prop where
  answer : call.2 = run.2
  table : Tabulates enc run.1.keys call.1

/-- A row is read as the store in memory shows the key. -/
def Reads {τ : Type} (enc : DateTime → τ) (read : KeyRecord τ → KeyRecord DateTime) : Prop :=
  ∀ k row, Mirrors enc k row → row.id = k.id → k.Fits → (read row).view = k.masked.view

section Tables

variable {sha256 : String → String} {drivers : SqlDrivers} {store : ApiKeyStore} {id : String}
  {k k' : KeyRecord DateTime} {τ : Type} {enc : DateTime → τ} {rows : List (KeyRecord τ)}

/-- Of a hashed key, a row stores the token only under its hash. -/
theorem Mirrors.storesToken_eq {row : KeyRecord τ} (h : Mirrors enc k row)
    (hhashed : ∃ uuid, k.key = hashApiKey sha256 (generateApiKey uuid)) (dialect : SqlDialect)
    (token : String) :
    storesToken sha256 dialect token row = (k.key == hashApiKey sha256 token) := by
  obtain ⟨uuid, hkey⟩ := hhashed
  rw [storesToken, h.key, hkey, SqlDialect.isHashed_hashApiKey]
  simp

/-- An id either names no key, or names its key in Postgres too. -/
theorem ApiKeyStore.Indexed.parseUuid_cases (h : store.Indexed sha256 drivers) {id : String}
    (hcanonical : drivers.Canonical id) :
    drivers.parseUuid id = some id ∨ drivers.parseUuid id = none ∧ store.keys.get id = none := by
  rcases hparse : drivers.parseUuid id with - | uuid
  · refine .inr ⟨rfl, Option.eq_none_iff_forall_not_mem.2 fun k hk ↦ ?_⟩
    rw [(h.ids id k hk).2] at hparse
    cases hparse
  · exact .inl (congrArg some (hcanonical uuid hparse))

theorem Tabulates.answer_select (hstore : store.Indexed sha256 drivers)
    (h : Tabulates enc store.keys rows) {read : KeyRecord τ → KeyRecord DateTime}
    (hread : Reads enc read) (id : String) :
    ofKey ((KeyTable.select rows id).map read) = ofKey ((store.keys.get id).map .masked) := by
  rcases hk : store.keys.get id with - | k
  · rw [h.select_eq_none hk]
    rfl
  · obtain ⟨row, hrow, hid, hm⟩ := h.select_eq_some hk
    rw [hrow]
    exact congrArg found
      (hread k row hm (hid.trans (hstore.ids id k hk).1.symm) (hstore.fits id k hk))

theorem Tabulates.isSome_select (h : Tabulates enc store.keys rows) (id : String) :
    ofBool (KeyTable.select rows id).isSome = ofBool (store.keys.get id).isSome := by
  rcases hk : store.keys.get id with - | k
  · rw [h.select_eq_none hk]
    rfl
  · obtain ⟨row, hrow, -⟩ := h.select_eq_some hk
    rw [hrow]
    rfl

/-- An id that names no key is told so, and nothing changes. -/
theorem ApiKeyStore.run_of_absent {op : KeyOp} (hop : op.id? = some id)
    (hnone : store.keys.get id = none) : store.run sha256 op = (store, .absent) := by
  cases op with
  | create | validate => cases hop
  | get i =>
    obtain rfl := Option.some.inj hop
    rw [run, ApiKeyStore.get, hnone]
    rfl
  | update i request =>
    obtain rfl := Option.some.inj hop
    simp only [run, ApiKeyStore.update, hnone]
    rfl
  | revoke i =>
    obtain rfl := Option.some.inj hop
    simp only [run, ApiKeyStore.revoke, hnone]
    rfl
  | rotate i uuid =>
    obtain rfl := Option.some.inj hop
    simp only [run, ApiKeyStore.rotate, hnone]
    rfl
  | delete i =>
    obtain rfl := Option.some.inj hop
    simp only [run, ApiKeyStore.delete, hnone]
    rfl

/-- The statements of `update`, `revoke` and `rotate`: one row is updated, and read. -/
theorem Tabulates.follows_update (h : Tabulates enc store.keys rows)
    (hk : store.keys.get id = some k) {index : KeyMap String String}
    (hstore' : (ApiKeyStore.mk (store.keys.insert id k') index).Indexed sha256 drivers)
    {f : KeyRecord τ → KeyRecord τ} (hid : ∀ row, (f row).id = row.id)
    (hf : ∀ row, Mirrors enc k row → Mirrors enc k' (f row)) {α : Type} {answer : α → KeyOutcome}
    {read : List (KeyRecord τ) → α} {outcome : KeyOutcome}
    (hanswer : ∀ rows', Tabulates enc (store.keys.insert id k') rows' →
      answer (read rows') = outcome) :
    Follows enc
      (settle rows answer
        (KeyTable.update rows (·.id == id) f >>= fun rows' ↦ .ok (rows', read rows')))
      (⟨store.keys.insert id k', index⟩, outcome) := by
  obtain ⟨rows', hupdate, htable⟩ := h.update hk (fun row _ ↦ rfl) hid hf hstore'.differ
  rw [hupdate]
  exact ⟨hanswer rows' htable, htable⟩

theorem Tabulates.follows_revoke (hstore : store.Indexed sha256 drivers)
    (h : Tabulates enc store.keys rows) (id : String) :
    Follows enc
      (settle rows ofBool
        (KeyTable.update rows (·.id == id) ({ · with enabled := false }) >>= fun rows' ↦
          .ok (rows', (KeyTable.select rows id).isSome)))
      (store.run sha256 (.revoke id)) := by
  have hanswer := h.isSome_select id
  rcases hk : store.keys.get id with - | k
  · rw [ApiKeyStore.run_of_absent rfl hk, h.update_none hstore.differ (h.select_none hk)]
    rw [hk] at hanswer
    exact ⟨hanswer, h⟩
  · simp only [ApiKeyStore.run, settle, ApiKeyStore.revoke, hk]
    rw [hk] at hanswer
    exact h.follows_update hk
      (hstore.amend { k with enabled := false } hk rfl rfl (hstore.fits id k hk))
      (f := fun row ↦ { row with enabled := false }) (fun row ↦ rfl)
      (fun row hm ↦ ⟨hm.key, rfl, hm.settings⟩) fun rows' _ ↦ hanswer

theorem Tabulates.follows_delete (h : Tabulates enc store.keys rows) (id : String) :
    Follows enc
      (settle rows ofBool (.ok (KeyTable.delete rows id, (KeyTable.select rows id).isSome)))
      (store.run sha256 (.delete id)) := by
  have hanswer := h.isSome_select id
  rcases hk : store.keys.get id with - | k
  · rw [ApiKeyStore.run_of_absent rfl hk]
    rw [hk] at hanswer
    have hsame : KeyTable.delete rows id = rows :=
      List.filter_eq_self.2 fun row hrow ↦ by rw [bne, h.select_none hk row hrow, Bool.not_false]
    rw [hsame]
    exact ⟨hanswer, h⟩
  · simp only [ApiKeyStore.run, settle, ApiKeyStore.delete, hk]
    rw [hk] at hanswer
    exact ⟨hanswer, h.delete id⟩

theorem Tabulates.follows_rotate (hstore : store.Indexed sha256 drivers)
    (h : Tabulates enc store.keys rows) {id uuid : String}
    (hgenerated : store.Generated sha256 drivers (.rotate id uuid))
    (hcommon : store.Common sha256 drivers (.rotate id uuid))
    (read : KeyRecord τ → KeyRecord DateTime) (hread : Reads enc read) :
    Follows enc
      (settle rows ofKey
        (KeyTable.update rows (·.id == id)
          ({ · with key := hashApiKey sha256 (generateApiKey uuid) }) >>= fun rows' ↦
            .ok (rows', (KeyTable.select rows' id).map fun row ↦
              { read row with key := generateApiKey uuid })))
      (store.run sha256 (.rotate id uuid)) := by
  have hstore' := hstore.run hgenerated hcommon
  rcases hk : store.keys.get id with - | k
  · rw [ApiKeyStore.run_of_absent rfl hk, h.update_none hstore.differ (h.select_none hk)]
    refine ⟨?_, h⟩
    show ofKey ((KeyTable.select rows id).map _) = _
    rw [h.select_eq_none hk]
    rfl
  · simp only [ApiKeyStore.run, settle, ApiKeyStore.rotate, hk] at hstore' ⊢
    refine h.follows_update hk hstore'
      (f := fun row ↦ { row with key := hashApiKey sha256 (generateApiKey uuid) }) (fun row ↦ rfl)
      (fun row hm ↦ ⟨rfl, hm.enabled, hm.settings⟩) fun rows' htable ↦ ?_
    obtain ⟨row, hselect, hid, hm⟩ := htable.select_eq_some (KeyMap.get_insert_self ..)
    have hview := hread _ row hm (hid.trans (hstore.ids id k hk).1.symm) (hstore.fits id k hk)
    rw [hselect]
    exact congrArg (fun view ↦ found { view with key := generateApiKey uuid }) hview

/-- The statement of `validate` does what the store in memory does. -/
theorem Tabulates.validate (hstore : store.Indexed sha256 drivers)
    (h : Tabulates enc store.keys rows) {token : String} {now : DateTime}
    (hnow : ∀ id ∈ store.keysByKey.get (hashApiKey sha256 token), ∀ k ∈ store.keys.get id,
      k.expiresAt ≠ some now)
    {selects : KeyRecord τ → Bool}
    (hselects : ∀ row ∈ rows, ∀ k ∈ store.keys.get row.id, Mirrors enc k row →
      selects row =
        (k.key == hashApiKey sha256 token && k.enabled && k.expiresAt.all (now < ·)))
    {f : KeyRecord τ → KeyRecord τ} (hid : ∀ row, (f row).id = row.id)
    (hf : ∀ k row, Mirrors enc k row → k.key = hashApiKey sha256 token →
      Mirrors enc (k.touch now) (f row))
    {read : KeyRecord τ → KeyRecord DateTime}
    (hread : Reads enc read) :
    ∃ rows', KeyTable.update rows selects f = .ok rows' ∧
      Tabulates enc (store.validate sha256 token now).1.keys rows' ∧
      ofKey ((rows.find? selects).map fun row ↦ read (f row)) =
        ofKey (store.validate sha256 token now).2 := by
  have hreject (hnone : ∀ row ∈ rows, selects row = false)
      (hvalidate : store.validate sha256 token now = (store, none)) :
      ∃ rows', KeyTable.update rows selects f = .ok rows' ∧
        Tabulates enc (store.validate sha256 token now).1.keys rows' ∧
        ofKey ((rows.find? selects).map fun row ↦ read (f row)) =
          ofKey (store.validate sha256 token now).2 := by
    refine ⟨rows, h.update_none hstore.differ hnone f, ?_, ?_⟩
    · rwa [hvalidate]
    · rw [hvalidate, List.find?_eq_none.2 fun row hrow ↦ by simp [hnone row hrow]]
      rfl
  rcases hindex : store.keysByKey.get (hashApiKey sha256 token) with - | id
  · refine hreject (fun row hrow ↦ ?_) (by simp only [ApiKeyStore.validate, hindex])
    obtain ⟨k, hk, hm⟩ := h.mirrors row hrow
    have hne : (k.key == hashApiKey sha256 token) = false :=
      beq_false_of_ne (hstore.ne_of_index hindex _ k hk)
    rw [hselects row hrow k hk hm, hne, Bool.false_and, Bool.false_and]
  · obtain ⟨k, hk, hkey⟩ := (hstore.index _ id).1 hindex
    -- the row of the id is the one that stores the hash
    have hrow (row : KeyRecord τ) (hmem : row ∈ rows) :
        selects row = (row.id == id && (k.enabled && k.expiresAt.all (now < ·))) := by
      obtain ⟨k₁, hk₁, hm⟩ := h.mirrors row hmem
      rw [hselects row hmem k₁ hk₁ hm, Bool.and_assoc]
      by_cases heq : row.id = id
      · rw [heq, hk] at hk₁
        obtain rfl := Option.some.inj hk₁
        rw [heq, hkey, beq_self_eq_true, beq_self_eq_true]
      · have hne : (k₁.key == hashApiKey sha256 token) = false :=
          beq_false_of_ne fun hkey₁ ↦
            heq (hstore.differ _ _ k₁ hk₁ k hk (hkey₁.trans hkey.symm))
        rw [hne, beq_false_of_ne heq, Bool.false_and, Bool.false_and]
    by_cases hlive : (k.enabled && k.expiresAt.all (now < ·)) = true
    · have hsel (row : KeyRecord τ) (hmem : row ∈ rows) : selects row = (row.id == id) := by
        rw [hrow row hmem, hlive, Bool.and_true]
      have hvalidate : store.validate sha256 token now =
          ({ store with keys := store.keys.insert id (k.touch now) },
            some (k.touch now).masked) := by
        rw [Bool.and_eq_true, Option.all_eq_true] at hlive
        obtain ⟨henabled, hexpires⟩ := hlive
        have hany : k.expiresAt.any (· < now) = false := by
          rw [Option.any_eq_false]
          intro e he
          have hlt : now < e := of_decide_eq_true (hexpires e he)
          simpa using hlt.le
        simp only [ApiKeyStore.validate, hindex, Option.mem_def.1 hk, henabled, hany]
        rfl
      have htouched : KeysDiffer (store.keys.insert id (k.touch now)) :=
        (hstore.amend (k.touch now) hk rfl rfl (hstore.fits id k hk)).differ
      obtain ⟨rows', hupdate, htable⟩ :=
        h.update hk hsel hid (fun row hm ↦ hf k row hm hkey) htouched
      obtain ⟨row, hfind, -, hrowId, hm⟩ := h.find?_eq_some hk hsel
      refine ⟨rows', hupdate, ?_, ?_⟩
      · rw [hvalidate]
        exact htable
      · rw [hvalidate, hfind]
        refine congrArg KeyOutcome.found (hread (k.touch now) (f row) (hf k row hm hkey) ?_ ?_)
        · rw [hid, hrowId]
          exact (hstore.ids id k hk).1.symm
        · exact hstore.fits id k hk
    · have hsel (row : KeyRecord τ) (hmem : row ∈ rows) : selects row = false := by
        rw [hrow row hmem, Bool.eq_false_iff.2 hlive, Bool.and_false]
      refine hreject hsel ?_
      simp only [ApiKeyStore.validate, hindex, Option.mem_def.1 hk]
      split
      · rfl
      · next henabled =>
        refine if_pos ?_
        rw [Bool.and_eq_true, not_and, Option.all_eq_true] at hlive
        have hexp := hlive (by simpa using henabled)
        simp only [not_forall] at hexp
        obtain ⟨e, he, hnot⟩ := hexp
        refine Option.any_eq_true _ _ |>.2 ⟨e, he, decide_eq_true ?_⟩
        have hle : e ≤ now := not_lt.1 fun hlt ↦ hnot (decide_eq_true hlt)
        refine lt_of_le_of_ne hle ?_
        rintro rfl
        exact hnow id hindex k hk he

end Tables

/-! ### Postgres -/

section Postgres

variable {sha256 : String → String} {drivers : SqlDrivers} {store : ApiKeyStore}
  {k : KeyRecord DateTime} {rows : List (KeyRecord DateTime)}

theorem Mirrors.toKeySettings_eq {row : KeyRecord DateTime} (h : Mirrors (fun t ↦ t) k row) :
    row.toKeySettings = k.toKeySettings := by
  rw [h.settings, Option.map_id']
  exact k.expiring_self

theorem reads_masked : Reads (fun t ↦ t) KeyRecord.masked := by
  intro k row h hid _
  simp only [KeyRecord.view, KeyRecord.masked, h.key, h.enabled, hid, h.toKeySettings_eq]

namespace PostgresStore

theorem bind_of_fits {settings : KeySettings DateTime} (h : settings.Fits) :
    bind drivers.timestamptz settings = .ok settings := by
  rw [bind, h.name, h.orgId, h.teamId, h.userId]
  rcases he : settings.expiresAt with - | e
  · rfl
  · simp only [drivers.timestamptz_plain e (h.expiresAt e he)]
    rw [← he]
    rfl

/-- A malformed id is one that is not found. -/
theorem run_of_malformed {op : KeyOp} {id : String} (hop : op.id? = some id)
    (hparse : drivers.parseUuid id = none) : run sha256 drivers rows op = (rows, .absent) := by
  cases op with
  | create | validate => cases hop
  | get i =>
    obtain rfl := Option.some.inj hop
    rw [run, get, hparse]
    rfl
  | update i request =>
    obtain rfl := Option.some.inj hop
    rw [run, update, hparse]
    rfl
  | revoke i =>
    obtain rfl := Option.some.inj hop
    rw [run, revoke, hparse]
    rfl
  | rotate i uuid =>
    obtain rfl := Option.some.inj hop
    rw [run, rotate, hparse]
    rfl
  | delete i =>
    obtain rfl := Option.some.inj hop
    rw [run, delete, hparse]
    rfl

theorem follows_create (hstore : store.Indexed sha256 drivers)
    (h : Tabulates (fun t ↦ t) store.keys rows) {id uuid : String} {now : DateTime}
    {request : KeySettings DateTime}
    (hgenerated : store.Generated sha256 drivers (.create id uuid now request))
    (hfits : request.Fits) :
    Follows (fun t ↦ t) (run sha256 drivers rows (.create id uuid now request))
      (store.run sha256 (.create id uuid now request)) := by
  obtain ⟨-, hid, hhash⟩ := hgenerated
  have hmirrors : Mirrors (fun t ↦ t)
      (KeyRecord.new id (hashApiKey sha256 (generateApiKey uuid)) now request)
      (KeyRecord.new id (hashApiKey sha256 (generateApiKey uuid)) now request) :=
    ⟨rfl, rfl, by rw [Option.map_id']; rfl⟩
  obtain ⟨hinsert, htable⟩ := h.insert hid rfl hmirrors (hstore.ne_of_index hhash)
  rw [run, create, bind_of_fits hfits]
  show Follows _ (settle rows (ofKey ∘ some) (KeyTable.insert rows _ >>= _)) _
  rw [hinsert]
  exact ⟨rfl, htable⟩

theorem follows_update (hstore : store.Indexed sha256 drivers)
    (h : Tabulates (fun t ↦ t) store.keys rows) {id : String} {request : UpdateKeyRequest}
    (hcommon : store.Common sha256 drivers (.update id request))
    (hparse : drivers.parseUuid id = some id) :
    Follows (fun t ↦ t) (run sha256 drivers rows (.update id request))
      (store.run sha256 (.update id request)) := by
  have hstore' : (store.run sha256 (.update id request)).1.Indexed sha256 drivers :=
    hstore.run trivial hcommon
  rcases hk : store.keys.get id with - | k
  · rw [ApiKeyStore.run_of_absent rfl hk]
    simp only [run, update, hparse, h.select_eq_none hk]
    exact ⟨rfl, h⟩
  · obtain ⟨row, hselect, -, hm⟩ := h.select_eq_some hk
    have hsettings : row.masked.toKeySettings = k.toKeySettings := hm.toKeySettings_eq
    have henabled : row.masked.enabled = k.enabled := hm.enabled
    simp only [ApiKeyStore.run, settle, ApiKeyStore.update, hk] at hstore' ⊢
    rw [run, update, hparse]
    simp only [hselect, Option.map_some, hsettings, henabled, bind_of_fits (hcommon.2 k hk)]
    refine h.follows_update hk hstore'
      (f := fun row ↦
        { row with
          toKeySettings := request.settings k.toKeySettings
          enabled := request.enabled.getD k.enabled })
      (fun row ↦ rfl) (fun row hm ↦ ⟨hm.key, rfl, by rw [Option.map_id']; rfl⟩)
      fun rows' htable ↦ ?_
    have hanswer := htable.answer_select hstore' reads_masked id
    rwa [KeyMap.get_insert_self] at hanswer

theorem follows_validate (hstore : store.Indexed sha256 drivers)
    (h : Tabulates (fun t ↦ t) store.keys rows) {token : String} {now : DateTime}
    (hcommon : store.Common sha256 drivers (.validate token now)) :
    Follows (fun t ↦ t) (run sha256 drivers rows (.validate token now))
      (store.run sha256 (.validate token now)) := by
  obtain ⟨htoken, -, hnow⟩ := hcommon
  have hselects : ∀ row ∈ rows, ∀ k ∈ store.keys.get row.id, Mirrors (fun t ↦ t) k row →
      accepts sha256 token now row =
        (k.key == hashApiKey sha256 token && k.enabled && k.expiresAt.all (now < ·)) := by
    intro row hrow k hk hm
    rw [accepts, hm.storesToken_eq (hstore.hashed _ k hk), hm.enabled, hm.toKeySettings_eq]
  obtain ⟨rows', hupdate, htable, hanswer⟩ := h.validate hstore hnow hselects
    (f := fun row ↦ { row.touch now with key := hashApiKey sha256 token }) (fun row ↦ rfl)
    (fun k row hm hkey ↦ ⟨hkey.symm, hm.enabled, hm.settings⟩) reads_masked
  rw [run, validate, htoken, if_neg (by decide)]
  show Follows _ (settle rows _ (KeyTable.update rows _ _ >>= _)) _
  rw [hupdate]
  exact ⟨hanswer, htable⟩

/-- **Postgres does what the store in memory does.** -/
theorem run_follows (hstore : store.Indexed sha256 drivers)
    (h : Tabulates (fun t ↦ t) store.keys rows) {op : KeyOp}
    (hgenerated : store.Generated sha256 drivers op) (hcommon : store.Common sha256 drivers op) :
    Follows (fun t ↦ t) (run sha256 drivers rows op) (store.run sha256 op) := by
  have hmalformed {id : String} (hop : op.id? = some id) (hparse : drivers.parseUuid id = none)
      (hnone : store.keys.get id = none) :
      Follows (fun t ↦ t) (run sha256 drivers rows op) (store.run sha256 op) := by
    rw [run_of_malformed hop hparse, ApiKeyStore.run_of_absent hop hnone]
    exact ⟨rfl, h⟩
  cases op with
  | create id uuid now request => exact follows_create hstore h hgenerated hcommon
  | validate token now => exact follows_validate hstore h hcommon
  | get id =>
    rcases hstore.parseUuid_cases hcommon with hparse | ⟨hparse, hnone⟩
    · rw [run, get, hparse]
      exact ⟨h.answer_select hstore reads_masked id, h⟩
    · exact hmalformed rfl hparse hnone
  | update id request =>
    rcases hstore.parseUuid_cases hcommon.1 with hparse | ⟨hparse, hnone⟩
    · exact follows_update hstore h hcommon hparse
    · exact hmalformed rfl hparse hnone
  | revoke id =>
    rcases hstore.parseUuid_cases hcommon with hparse | ⟨hparse, hnone⟩
    · rw [run, revoke, hparse]
      exact h.follows_revoke hstore id
    · exact hmalformed rfl hparse hnone
  | rotate id uuid =>
    rcases hstore.parseUuid_cases hcommon with hparse | ⟨hparse, hnone⟩
    · rw [run, rotate, hparse]
      exact h.follows_rotate hstore hgenerated hcommon .masked reads_masked
    · exact hmalformed rfl hparse hnone
  | delete id =>
    rcases hstore.parseUuid_cases hcommon with hparse | ⟨hparse, hnone⟩
    · rw [run, delete, hparse]
      exact h.follows_delete id
    · exact hmalformed rfl hparse hnone

end PostgresStore

end Postgres

/-! ### SQLite -/

section Sqlite

variable {sha256 : String → String} {drivers : SqlDrivers} {store : ApiKeyStore}
  {k : KeyRecord DateTime} {rows : List (KeyRecord String)}

theorem Mirrors.expiresAt_eq {row : KeyRecord String} (h : Mirrors toRfc3339 k row) :
    row.expiresAt = k.expiresAt.map toRfc3339 := congrArg KeySettings.expiresAt h.settings

variable (drivers) in
theorem reads_ofRow : Reads toRfc3339 (SqliteStore.ofRow drivers.parse) := by
  intro k row h hid hfits
  have hexpires : row.expiresAt.bind drivers.parse = k.expiresAt := by
    rw [h.expiresAt_eq]
    rcases he : k.expiresAt with - | e
    · rfl
    · exact drivers.parse_toRfc3339 e (hfits.expiresAt e he).year
  have hsettings : row.expiring (row.expiresAt.bind drivers.parse) = k.toKeySettings := by
    rw [hexpires, h.settings]
    exact k.expiring_self
  simp only [KeyRecord.view, SqliteStore.ofRow, KeyRecord.masked, h.key, h.enabled, hid, hsettings]

namespace SqliteStore

theorem create_of_insert {parse : String → Option DateTime} {rows' : List (KeyRecord String)}
    {row : KeyRecord String} {id uuid : String} {now : DateTime} {request : KeySettings DateTime}
    (hinsert : KeyTable.insert rows (KeyRecord.new id (hashApiKey sha256 (generateApiKey uuid))
      (toRfc3339 now) (bind request)) = .ok rows')
    (hselect : KeyTable.select rows' id = some row) :
    create sha256 parse rows id uuid now request =
      .ok (rows', { ofRow parse row with key := generateApiKey uuid }) := by
  simp only [create, get, hinsert, hselect, Option.map_some, Bind.bind, Except.bind, Pure.pure,
    Except.pure]

theorem follows_create (hstore : store.Indexed sha256 drivers)
    (h : Tabulates toRfc3339 store.keys rows) {id uuid : String} {now : DateTime}
    {request : KeySettings DateTime}
    (hgenerated : store.Generated sha256 drivers (.create id uuid now request))
    (hfits : request.Fits) :
    Follows toRfc3339 (run sha256 drivers rows (.create id uuid now request))
      (store.run sha256 (.create id uuid now request)) := by
  obtain ⟨-, hid, hhash⟩ := hgenerated
  have hmirrors : Mirrors toRfc3339
      (KeyRecord.new id (hashApiKey sha256 (generateApiKey uuid)) now request)
      (KeyRecord.new id (hashApiKey sha256 (generateApiKey uuid)) (toRfc3339 now) (bind request)) :=
    ⟨rfl, rfl, rfl⟩
  obtain ⟨hinsert, htable⟩ := h.insert hid rfl hmirrors (hstore.ne_of_index hhash)
  obtain ⟨row, hselect, hrowId, hm⟩ := htable.select_eq_some (KeyMap.get_insert_self ..)
  have hview := reads_ofRow drivers _ row hm hrowId hfits
  rw [run, create_of_insert hinsert hselect]
  refine ⟨?_, htable⟩
  exact congrArg (fun view ↦ found { view with key := generateApiKey uuid }) hview

theorem follows_update (hstore : store.Indexed sha256 drivers)
    (h : Tabulates toRfc3339 store.keys rows) {id : String} {request : UpdateKeyRequest}
    (hcommon : store.Common sha256 drivers (.update id request)) :
    Follows toRfc3339 (run sha256 drivers rows (.update id request))
      (store.run sha256 (.update id request)) := by
  have hstore' : (store.run sha256 (.update id request)).1.Indexed sha256 drivers :=
    hstore.run trivial hcommon
  rcases hk : store.keys.get id with - | k
  · rw [ApiKeyStore.run_of_absent rfl hk]
    simp only [run, update, get, h.select_eq_none hk]
    exact ⟨rfl, h⟩
  · obtain ⟨row, hselect, hid, hm⟩ := h.select_eq_some hk
    have hview := reads_ofRow drivers k row hm
      (hid.trans (hstore.ids id k hk).1.symm) (hstore.fits id k hk)
    have hsettings : (ofRow drivers.parse row).toKeySettings = k.toKeySettings :=
      congrArg KeyView.settings hview
    have henabled : (ofRow drivers.parse row).enabled = k.enabled := hm.enabled
    simp only [ApiKeyStore.run, settle, ApiKeyStore.update, hk] at hstore' ⊢
    rw [run, update, get]
    simp only [hselect, Option.map_some, hsettings, henabled]
    refine h.follows_update hk hstore'
      (f := fun row ↦
        { row with
          toKeySettings := bind (request.settings k.toKeySettings)
          enabled := request.enabled.getD k.enabled })
      (fun row ↦ rfl) (fun row hm ↦ ⟨hm.key, rfl, rfl⟩) fun rows' htable ↦ ?_
    have hanswer := htable.answer_select hstore' (reads_ofRow drivers) id
    rwa [KeyMap.get_insert_self] at hanswer

theorem follows_validate (hstore : store.Indexed sha256 drivers)
    (h : Tabulates toRfc3339 store.keys rows) {token : String} {now : DateTime}
    (hcommon : store.Common sha256 drivers (.validate token now)) :
    Follows toRfc3339 (run sha256 drivers rows (.validate token now))
      (store.run sha256 (.validate token now)) := by
  obtain ⟨-, hyear, hnow⟩ := hcommon
  have hselects : ∀ row ∈ rows, ∀ k ∈ store.keys.get row.id, Mirrors toRfc3339 k row →
      accepts sha256 token now row =
        (k.key == hashApiKey sha256 token && k.enabled && k.expiresAt.all (now < ·)) := by
    intro row hrow k hk hm
    have hexpires : row.expiresAt.all (toRfc3339 now < ·) = k.expiresAt.all (now < ·) := by
      rw [hm.expiresAt_eq]
      rcases he : k.expiresAt with - | e
      · rfl
      · exact decide_eq_decide.2
          (toRfc3339_lt_toRfc3339_iff hyear ((hstore.fits _ k hk).expiresAt e he).year)
    rw [accepts, hm.storesToken_eq (hstore.hashed _ k hk), hm.enabled, hexpires]
  obtain ⟨rows', hupdate, htable, hanswer⟩ := h.validate hstore hnow hselects
    (f := fun row ↦ { row.touch (toRfc3339 now) with key := hashApiKey sha256 token })
    (fun row ↦ rfl) (fun k row hm hkey ↦ ⟨hkey.symm, hm.enabled, hm.settings⟩)
    (reads_ofRow drivers)
  rw [run, validate]
  show Follows _ (settle rows _ (KeyTable.update rows _ _ >>= _)) _
  rw [hupdate]
  exact ⟨hanswer, htable⟩

/-- **SQLite does what the store in memory does.** -/
theorem run_follows (hstore : store.Indexed sha256 drivers)
    (h : Tabulates toRfc3339 store.keys rows) {op : KeyOp}
    (hgenerated : store.Generated sha256 drivers op) (hcommon : store.Common sha256 drivers op) :
    Follows toRfc3339 (run sha256 drivers rows op) (store.run sha256 op) := by
  cases op with
  | create id uuid now request => exact follows_create hstore h hgenerated hcommon
  | get id => exact ⟨h.answer_select hstore (reads_ofRow drivers) id, h⟩
  | update id request => exact follows_update hstore h hcommon
  | validate token now => exact follows_validate hstore h hcommon
  | revoke id => exact h.follows_revoke hstore id
  | rotate id uuid =>
    have hfollows := h.follows_rotate hstore hgenerated hcommon _ (reads_ofRow drivers)
    simp only [run, rotate, get, Option.map_map]
    exact hfollows
  | delete id => exact h.follows_delete id

end SqliteStore

end Sqlite

/-! ### The three together -/

namespace KeyStores

variable {sha256 : String → String} {drivers : SqlDrivers} {s : KeyStores}

variable (sha256 drivers) in
/-- The three backends hold the same keys. -/
structure Agree (s : KeyStores) : Prop where
  memory : s.memory.Indexed sha256 drivers
  postgres : Tabulates (fun t ↦ t) s.memory.keys s.postgres
  sqlite : Tabulates toRfc3339 s.memory.keys s.sqlite

theorem agree_new : new.Agree sha256 drivers where
  memory :=
    { ids _ _ h := by cases h
      index _ _ := ⟨fun h ↦ (by cases h), fun ⟨_, h, _⟩ ↦ (by cases h)⟩
      hashed _ _ h := by cases h
      fits _ _ h := by cases h }
  postgres := Tabulates.empty _
  sqlite := Tabulates.empty _

theorem Agree.next (h : s.Agree sha256 drivers) {op : KeyOp}
    (hgenerated : s.memory.Generated sha256 drivers op)
    (hcommon : s.memory.Common sha256 drivers op) :
    (s.next sha256 drivers op).Agree sha256 drivers where
  memory := h.memory.run hgenerated hcommon
  postgres := (PostgresStore.run_follows h.memory h.postgres hgenerated hcommon).table
  sqlite := (SqliteStore.run_follows h.memory h.sqlite hgenerated hcommon).table

theorem Agree.answerAlike (h : s.Agree sha256 drivers) {op : KeyOp}
    (hgenerated : s.memory.Generated sha256 drivers op)
    (hcommon : s.memory.Common sha256 drivers op) : s.AnswerAlike sha256 drivers op :=
  ⟨(PostgresStore.run_follows h.memory h.postgres hgenerated hcommon).answer,
    (SqliteStore.run_follows h.memory h.sqlite hgenerated hcommon).answer⟩

theorem agree_invariant :
    ((runs sha256 drivers).guard fun s op ↦ s.memory.Common sha256 drivers op).Invariant
      (Agree sha256 drivers) where
  init s hs := by
    obtain rfl : s = new := hs
    exact agree_new
  step s op s' h hstep := by
    obtain ⟨⟨hgenerated, rfl⟩, hcommon⟩ := hstep
    exact h.next hgenerated hcommon

/-- A stored hash is not a secret, to the store in memory. -/
theorem Agree.validate_hash (hsha : Function.Injective sha256) (h : s.Agree sha256 drivers)
    {id : String} {k : KeyRecord DateTime} (hk : s.memory.keys.get id = some k) (now : DateTime) :
    (s.memory.validate sha256 k.key now).2 = none := by
  have hindex : s.memory.keysByKey.get (hashApiKey sha256 k.key) = none := by
    refine Option.eq_none_iff_forall_not_mem.2 fun id' hid' ↦ ?_
    obtain ⟨k', hk', hkey'⟩ := (h.memory.index _ id').1 hid'
    obtain ⟨uuid, hhashed⟩ := h.memory.hashed id k hk
    obtain ⟨uuid', hhashed'⟩ := h.memory.hashed id' k' hk'
    -- the hash of the hash would be the hash of a secret
    have hsecret : generateApiKey uuid' = hashApiKey sha256 (generateApiKey uuid) := by
      rw [← hhashed]
      exact hsha ((String.append_right_inj _).1 (hhashed'.symm.trans hkey'))
    have hhead := congrArg (fun t ↦ t.toList[1]?) hsecret
    simp [generateApiKey, hashApiKey] at hhead
  rw [ApiKeyStore.validate, hindex]

end KeyStores

end Himadri
