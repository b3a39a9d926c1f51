import Himadri.Admin.KeyParity

/-!
# Rows from before hashing, and the agreement of the backends

A table may hold keys in plaintext, from before keys were hashed. `validate` finds a secret under
its hash or in plaintext, and never takes a stored hash for a secret. With the runs of
`KeyStores.runs` this is what the backends promise of one another (`backends_agree`).

Memory accepts a key at the instant it expires and the databases do not (`disagree_at_expiry`);
SQLite takes a key that expires after the year 9999 to be expired.
-/

open Chrono

namespace Himadri

/-! ### Rows from before hashing -/

/-- The text does not look like a hash, in either database. -/
def Plaintext (s : String) : Prop :=
  Text.startsWith (Text.toAsciiLowercase s) "sha256:" = false

theorem Plaintext.isHashed {s : String} (h : Plaintext s) (dialect : SqlDialect) :
    dialect.isHashed s = false := by
  cases dialect with
  | sqlite => exact h
  | postgres =>
    refine Bool.eq_false_iff.2 fun hstarts ↦ Bool.eq_false_iff.1 h ?_
    obtain ⟨rest, hrest⟩ := List.isPrefixOf_iff_prefix.1 hstarts
    rw [Text.startsWith, Text.toList_toAsciiLowercase, ← hrest, List.map_append]
    exact List.isPrefixOf_iff_prefix.2 (List.prefix_append _ _)

section Legacy

variable {sha256 : String → String} {τ : Type} {enc : DateTime → τ} {rows : List (KeyRecord τ)}

variable (sha256 enc) in
/-- A table that may hold keys in plaintext, none of which is also stored hashed. -/
structure LegacyTable (rows : List (KeyRecord τ)) : Prop where
  keys : (rows.map (·.key)).Nodup
  /-- A row stores the hash of a secret, or a secret. -/
  stored : ∀ row ∈ rows, Plaintext row.key ∨
    ∃ secret, Plaintext secret ∧ row.key = hashApiKey sha256 secret
  once : ∀ row ∈ rows, Plaintext row.key → ∀ row' ∈ rows, row'.key ≠ hashApiKey sha256 row.key
  expiresAt : ∀ row ∈ rows, ∃ e : Option DateTime,
    row.expiresAt = e.map enc ∧ ∀ t ∈ e, t.FourDigitYear

variable (sha256 enc) in
/-- The row is enabled, has not expired, and stores the token: hashed, or in plaintext. -/
structure Opens (token : String) (now : DateTime) (row : KeyRecord τ) : Prop where
  enabled : row.enabled = true
  unexpired : ∀ t : DateTime, t.FourDigitYear → row.expiresAt = some (enc t) → now < t
  stores : row.key = hashApiKey sha256 token ∨ row.key = token ∧ Plaintext row.key

theorem LegacyTable.storesToken_iff (h : LegacyTable sha256 enc rows) {row : KeyRecord τ}
    (hrow : row ∈ rows) (dialect : SqlDialect) (token : String) :
    storesToken sha256 dialect token row = true ↔
      row.key = hashApiKey sha256 token ∨ row.key = token ∧ Plaintext row.key := by
  rw [storesToken, Bool.or_eq_true, Bool.and_eq_true, beq_iff_eq, beq_iff_eq, Bool.not_eq_true']
  refine or_congr_right (and_congr_right fun _ ↦ ?_)
  refine ⟨fun hnot ↦ ?_, fun hplain ↦ hplain.isHashed dialect⟩
  rcases h.stored row hrow with hplain | ⟨secret, -, hkey⟩
  · exact hplain
  · rw [hkey, SqlDialect.isHashed_hashApiKey] at hnot
    cases hnot

/-- The statement of `validate` succeeds, with the row that the token opens. -/
theorem LegacyTable.update (h : LegacyTable sha256 enc rows) {token : String} {now : DateTime}
    {selects : KeyRecord τ → Bool}
    (hselects : ∀ row ∈ rows, selects row = true ↔ Opens sha256 enc token now row)
    {f : KeyRecord τ → KeyRecord τ} (hf : ∀ row, (f row).key = hashApiKey sha256 token) :
    ∃ rows', KeyTable.update rows selects f = .ok rows' := by
  refine ⟨_, if_pos ?_⟩
  rw [List.map_map]
  -- where a row is found under the token, no other row has its hash
  have honly (row : KeyRecord τ) (hrow : row ∈ rows) (hsel : selects row = true)
      (row' : KeyRecord τ) (hrow' : row' ∈ rows)
      (hkey' : row'.key = hashApiKey sha256 token ∨ selects row' = true) : row = row' := by
    have hstores := ((hselects row hrow).1 hsel).stores
    have hstores' : row'.key = hashApiKey sha256 token ∨ row'.key = token ∧ Plaintext row'.key :=
      hkey'.elim .inl fun hsel' ↦ ((hselects row' hrow').1 hsel').stores
    refine List.inj_on_of_nodup_map h.keys hrow hrow' ?_
    rcases hstores with hhash | ⟨htoken, hplain⟩ <;>
      rcases hstores' with hhash' | ⟨htoken', hplain'⟩
    · rw [hhash, hhash']
    · exact (h.once row' hrow' hplain' row hrow (by rw [hhash, htoken'])).elim
    · exact (h.once row hrow hplain row' hrow' (by rw [hhash', htoken])).elim
    · rw [htoken, htoken']
  refine List.Nodup.map_on (fun row hrow row' hrow' heq ↦ ?_) (List.Nodup.of_map _ h.keys)
  simp only [Function.comp] at heq
  split at heq <;> split at heq
  · next hsel hsel' => exact honly row hrow hsel row' hrow' (.inr hsel')
  · next hsel hsel' => exact honly row hrow hsel row' hrow' (.inl (heq.symm.trans (hf row)))
  · next hsel hsel' => exact (honly row' hrow' hsel' row hrow (.inl (heq.trans (hf row')))).symm
  · exact List.inj_on_of_nodup_map h.keys hrow hrow' heq

/-- A stored hash opens no row. -/
theorem LegacyTable.not_opens (hsha : Function.Injective sha256) (h : LegacyTable sha256 enc rows)
    {row row' : KeyRecord τ} (hrow' : row' ∈ rows) (hhashed : ¬Plaintext row.key) (now : DateTime) :
    ¬Opens sha256 enc row.key now row' := by
  intro hopens
  rcases hopens.stores with hhash | ⟨htoken, hplain⟩
  · rcases h.stored row' hrow' with hplain | ⟨secret, hsecret, hkey⟩
    · have hnot := hplain.isHashed .sqlite
      rw [hhash, SqlDialect.isHashed_hashApiKey] at hnot
      cases hnot
    · obtain rfl := hsha ((String.append_right_inj _).1 (hkey.symm.trans hhash))
      exact hhashed hsecret
  · rw [htoken] at hplain
    exact hhashed hplain

/-- **The row that the token opens is found**, by a statement that selects such rows. -/
theorem LegacyTable.find?_iff {token : String} {now : DateTime} {selects : KeyRecord τ → Bool}
    (hselects : ∀ row ∈ rows, selects row = true ↔ Opens sha256 enc token now row)
    (answer : KeyRecord τ → KeyRecord DateTime) :
    (∃ k, (rows.find? selects).map answer = some k) ↔
      ∃ row ∈ rows, Opens sha256 enc token now row := by
  constructor
  · rintro ⟨k, hk⟩
    obtain ⟨row, hfind, -⟩ := Option.map_eq_some_iff.1 hk
    have hrow := List.mem_of_find?_eq_some hfind
    exact ⟨row, hrow, (hselects row hrow).1 (List.find?_some hfind)⟩
  · rintro ⟨row, hrow, hopens⟩
    have hsome := List.find?_isSome.2 ⟨row, hrow, (hselects row hrow).2 hopens⟩
    obtain ⟨found, hfound⟩ := Option.isSome_iff_exists.1 hsome
    exact ⟨answer found, by rw [hfound]; rfl⟩

end Legacy

/-- Postgres accepts the token. -/
def PostgresStore.Accepts (sha256 : String → String) (rows : List (KeyRecord DateTime))
    (token : String) (now : DateTime) : Prop :=
  ∃ rows' k, validate sha256 rows token now = .ok (rows', some k)

/-- SQLite accepts the token. -/
def SqliteStore.Accepts (sha256 : String → String) (parse : String → Option DateTime)
    (rows : List (KeyRecord String)) (token : String) (now : DateTime) : Prop :=
  ∃ rows' k, validate sha256 parse rows token now = .ok (rows', some k)

section Accepts

variable {sha256 : String → String} {token : String} {now : DateTime}

theorem PostgresStore.accepts_iff {rows : List (KeyRecord DateTime)}
    (h : LegacyTable sha256 (fun t ↦ t) rows) (htoken : token.toList.contains (.ofNat 0) = false) :
    Accepts sha256 rows token now ↔ ∃ row ∈ rows, Opens sha256 (fun t ↦ t) token now row := by
  have hselects : ∀ row ∈ rows, accepts sha256 token now row = true ↔
      Opens sha256 (fun t ↦ t) token now row := by
    intro row hrow
    rw [accepts, Bool.and_eq_true, Bool.and_eq_true, h.storesToken_iff hrow, Option.all_eq_true]
    constructor
    · rintro ⟨⟨hstores, henabled⟩, hexpires⟩
      exact ⟨henabled, fun t _ ht ↦ of_decide_eq_true (hexpires t ht), hstores⟩
    · intro hopens
      refine ⟨⟨hopens.stores, hopens.enabled⟩, fun t ht ↦ decide_eq_true ?_⟩
      obtain ⟨e, he, hyear⟩ := h.expiresAt row hrow
      rw [Option.map_id'] at he
      exact hopens.unexpired t (hyear t (he ▸ ht)) ht
  rw [← LegacyTable.find?_iff hselects fun row ↦
    ({ row.touch now with key := hashApiKey sha256 token } : KeyRecord DateTime).masked]
  obtain ⟨rows', hupdate⟩ := h.update hselects
    (f := fun row ↦ { row.touch now with key := hashApiKey sha256 token }) fun row ↦ rfl
  rw [Accepts, validate, htoken, if_neg (by decide)]
  show (∃ rows' k, (KeyTable.update rows _ _ >>= _) = .ok (rows', some k)) ↔ _
  rw [hupdate]
  constructor
  · rintro ⟨rows₁, k, heq⟩
    exact ⟨k, congrArg Prod.snd (Except.ok.inj heq)⟩
  · rintro ⟨k, hk⟩
    exact ⟨rows', k, congrArg (fun a ↦ Except.ok (rows', a)) hk⟩

theorem SqliteStore.accepts_iff {parse : String → Option DateTime} {rows : List (KeyRecord String)}
    (h : LegacyTable sha256 toRfc3339 rows) (hnow : now.FourDigitYear) :
    Accepts sha256 parse rows token now ↔ ∃ row ∈ rows, Opens sha256 toRfc3339 token now row := by
  have hselects : ∀ row ∈ rows, accepts sha256 token now row = true ↔
      Opens sha256 toRfc3339 token now row := by
    intro row hrow
    obtain ⟨e, he, hyear⟩ := h.expiresAt row hrow
    rw [accepts, Bool.and_eq_true, Bool.and_eq_true, h.storesToken_iff hrow, he]
    constructor
    · rintro ⟨⟨hstores, henabled⟩, hexpires⟩
      refine ⟨henabled, fun t ht heq ↦ ?_, hstores⟩
      rw [← he, heq] at hexpires
      exact (toRfc3339_lt_toRfc3339_iff hnow ht).1 (of_decide_eq_true hexpires)
    · intro hopens
      refine ⟨⟨hopens.stores, hopens.enabled⟩, ?_⟩
      rcases e with - | t
      · rfl
      · have ht := hyear t rfl
        exact decide_eq_true ((toRfc3339_lt_toRfc3339_iff hnow ht).2 (hopens.unexpired t ht he))
  rw [← LegacyTable.find?_iff hselects fun row ↦
    ofRow parse { row.touch (toRfc3339 now) with key := hashApiKey sha256 token }]
  obtain ⟨rows', hupdate⟩ := h.update hselects
    (f := fun row ↦ { row.touch (toRfc3339 now) with key := hashApiKey sha256 token }) fun row ↦ rfl
  rw [Accepts, validate]
  show (∃ rows' k, (KeyTable.update rows _ _ >>= _) = .ok (rows', some k)) ↔ _
  rw [hupdate]
  constructor
  · rintro ⟨rows₁, k, heq⟩
    exact ⟨k, congrArg Prod.snd (Except.ok.inj heq)⟩
  · rintro ⟨k, hk⟩
    exact ⟨rows', k, congrArg (fun a ↦ Except.ok (rows', a)) hk⟩

/-- A stored hash is refused. -/
theorem PostgresStore.not_accepts (hsha : Function.Injective sha256)
    {rows : List (KeyRecord DateTime)} (h : LegacyTable sha256 (fun t ↦ t) rows)
    {row : KeyRecord DateTime} (hhashed : ¬Plaintext row.key) :
    ¬Accepts sha256 rows row.key now := by
  by_cases htoken : row.key.toList.contains (.ofNat 0) = true
  · rintro ⟨rows', k, hcall⟩
    rw [validate, if_pos htoken] at hcall
    cases hcall
  · rw [accepts_iff h (Bool.eq_false_iff.2 htoken)]
    rintro ⟨row', hrow', hopens⟩
    exact h.not_opens hsha hrow' hhashed now hopens

theorem SqliteStore.not_accepts (hsha : Function.Injective sha256)
    {parse : String → Option DateTime} {rows : List (KeyRecord String)}
    (h : LegacyTable sha256 toRfc3339 rows) (hnow : now.FourDigitYear) {row : KeyRecord String}
    (hhashed : ¬Plaintext row.key) : ¬Accepts sha256 parse rows row.key now := by
  rw [accepts_iff h hnow]
  rintro ⟨row', hrow', hopens⟩
  exact h.not_opens hsha hrow' hhashed now hopens

end Accepts

/-- The tables of a run hold no key in plaintext. -/
theorem Tabulates.legacyTable {sha256 : String → String} {drivers : SqlDrivers}
    {store : ApiKeyStore} {τ : Type} {enc : DateTime → τ} {rows : List (KeyRecord τ)}
    (hstore : store.Indexed sha256 drivers) (h : Tabulates enc store.keys rows) :
    LegacyTable sha256 enc rows where
  keys := h.keys_nodup hstore.differ
  stored row hrow := by
    obtain ⟨k, hk, hm⟩ := h.mirrors row hrow
    obtain ⟨uuid, hkey⟩ := hstore.hashed _ k hk
    refine .inr ⟨generateApiKey uuid, ?_, hm.key.trans hkey⟩
    rw [Plaintext, Text.startsWith, Text.toList_toAsciiLowercase, generateApiKey,
      String.toList_append, List.map_append]
    rfl
  once row hrow hplain := by
    obtain ⟨k, hk, hm⟩ := h.mirrors row hrow
    obtain ⟨uuid, hkey⟩ := hstore.hashed _ k hk
    have hnot := hplain.isHashed .sqlite
    rw [hm.key, hkey, SqlDialect.isHashed_hashApiKey] at hnot
    cases hnot
  expiresAt row hrow := by
    obtain ⟨k, hk, hm⟩ := h.mirrors row hrow
    exact ⟨k.expiresAt, congrArg KeySettings.expiresAt hm.settings,
      fun t ht ↦ ((hstore.fits _ k hk).expiresAt t ht).year⟩

/-! ### Agreement -/

/-- What the backends promise of one another, where operations meet the condition. -/
structure BackendsAgree (sha256 : String → String) (drivers : SqlDrivers)
    (common : ApiKeyStore → KeyOp → Prop) : Prop where
  /-- In every state of a run, the next operation is answered alike. -/
  alike : ∀ s, ((KeyStores.runs sha256 drivers).guard fun s op ↦ common s.memory op).Reachable s →
    ∀ op, s.memory.Generated sha256 drivers op → common s.memory op →
      s.AnswerAlike sha256 drivers op
  /-- And a stored hash, presented as a token, is refused. -/
  refused : ∀ s,
    ((KeyStores.runs sha256 drivers).guard fun s op ↦ common s.memory op).Reachable s →
    ∀ now : DateTime, now.FourDigitYear →
      (∀ id, ∀ k ∈ s.memory.keys.get id, (s.memory.validate sha256 k.key now).2 = none) ∧
      (∀ row ∈ s.postgres, ¬PostgresStore.Accepts sha256 s.postgres row.key now) ∧
      ∀ row ∈ s.sqlite, ¬SqliteStore.Accepts sha256 drivers.parse s.sqlite row.key now
  /-- Of rows from before hashing, Postgres accepts the secrets and no stored hash. -/
  postgres : ∀ rows, LegacyTable sha256 (fun t ↦ t) rows → ∀ now token,
    token.toList.contains (.ofNat 0) = false →
      (PostgresStore.Accepts sha256 rows token now ↔
        ∃ row ∈ rows, Opens sha256 (fun t ↦ t) token now row) ∧
      ∀ row ∈ rows, ¬Plaintext row.key → ¬PostgresStore.Accepts sha256 rows row.key now
  /-- And so does SQLite. -/
  sqlite : ∀ rows, LegacyTable sha256 toRfc3339 rows → ∀ now token, now.FourDigitYear →
    (SqliteStore.Accepts sha256 drivers.parse rows token now ↔
      ∃ row ∈ rows, Opens sha256 toRfc3339 token now row) ∧
    ∀ row ∈ rows, ¬Plaintext row.key → ¬SqliteStore.Accepts sha256 drivers.parse rows row.key now

/-- **The three backends agree**, as long as every operation asks for what all of them can keep and
no key is presented at the instant it expires. -/
theorem backends_agree {sha256 : String → String} (hsha : Function.Injective sha256)
    (drivers : SqlDrivers) :
    BackendsAgree sha256 drivers fun store op ↦ store.Common sha256 drivers op where
  alike _ hs _ hgenerated hcommon :=
    (KeyStores.agree_invariant.of_reachable hs).answerAlike hgenerated hcommon
  refused s hs now hnow := by
    have h := KeyStores.agree_invariant.of_reachable hs
    have hhashed {τ : Type} {enc : DateTime → τ} {rows : List (KeyRecord τ)}
        (htable : Tabulates enc s.memory.keys rows) {row : KeyRecord τ} (hrow : row ∈ rows) :
        ¬Plaintext row.key := by
      obtain ⟨k, hk, hm⟩ := htable.mirrors row hrow
      obtain ⟨uuid, hkey⟩ := h.memory.hashed _ k hk
      intro hplain
      have hnot := hplain.isHashed .sqlite
      rw [hm.key, hkey, SqlDialect.isHashed_hashApiKey] at hnot
      cases hnot
    exact ⟨fun id k hk ↦ h.validate_hash hsha hk now,
      fun row hrow ↦ PostgresStore.not_accepts hsha (h.postgres.legacyTable h.memory)
        (hhashed h.postgres hrow),
      fun row hrow ↦ SqliteStore.not_accepts hsha (h.sqlite.legacyTable h.memory) hnow
        (hhashed h.sqlite hrow)⟩
  postgres _ h _ _ htoken :=
    ⟨PostgresStore.accepts_iff h htoken, fun _ _ hhashed ↦ PostgresStore.not_accepts hsha h hhashed⟩
  sqlite _ h _ _ hnow :=
    ⟨SqliteStore.accepts_iff h hnow, fun _ _ hhashed ↦ SqliteStore.not_accepts hsha h hnow hhashed⟩

/-! ### At the instant of expiry, and past the year 9999 -/

/-- The hyphenated form of a UUID. -/
def parseHyphenated (id : String) : Option String :=
  if (Text.split '-' id).map String.length = [8, 4, 4, 4, 12] ∧
      id.toList.all (fun c ↦ c == '-' || c.isDigit || ('a' ≤ c.toLower && c.toLower ≤ 'f')) then
    some (Text.toAsciiLowercase id)
  else none

open Classical in
/-- Drivers that keep every instant, and read a UUID with its hyphens. -/
noncomputable def plainDrivers : SqlDrivers where
  parseUuid := parseHyphenated
  timestamptz t := some t
  parse s := if h : ∃ t : DateTime, t.FourDigitYear ∧ toRfc3339 t = s then some h.choose else none
  timestamptz_plain _ _ := rfl
  parse_toRfc3339 t ht := by
    have h : ∃ u : DateTime, u.FourDigitYear ∧ toRfc3339 u = toRfc3339 t := ⟨t, ht, rfl⟩
    rw [dif_pos h]
    exact congrArg some (toRfc3339_injOn h.choose_spec.1 ht h.choose_spec.2)

theorem backends_agree_plainDrivers :
    BackendsAgree id plainDrivers fun store op ↦ store.Common id plainDrivers op :=
  backends_agree Function.injective_id plainDrivers

/-- A new year. -/
def newYear : DateTime where
  year := 2027
  ordinal := 1
  secs := 0
  frac := 0
  ordinal_pos := unixEpoch.ordinal_pos
  ordinal_le := unixEpoch.ordinal_le
  secs_lt := unixEpoch.secs_lt
  frac_lt := unixEpoch.frac_lt
  leap := unixEpoch.leap

/-- A key that expires with the new year. -/
def newYearRequest : KeySettings DateTime where
  name := "ci"
  scopes := []
  expiresAt := some newYear
  metadata := none
  orgId := none
  teamId := none
  userId := none
  models := none
  rateLimitOverride := none
  tokenBudget := none

/-- Memory accepts a key at the instant it expires, and the databases do not. -/
theorem disagree_at_expiry :
    ¬∀ s, (KeyStores.runs id plainDrivers).Reachable s →
      ∀ op, s.memory.Generated id plainDrivers op → s.AnswerAlike id plainDrivers op := by
  intro h
  have hgenerated : KeyStores.new.memory.Generated id plainDrivers
      (.create "00000000-0000-4000-8000-000000000001" "1" unixEpoch newYearRequest) :=
    ⟨by decide, rfl, rfl⟩
  have hs : (KeyStores.runs id plainDrivers).Reachable (KeyStores.new.next id plainDrivers
      (.create "00000000-0000-4000-8000-000000000001" "1" unixEpoch newYearRequest)) :=
    .step (.init rfl) ⟨hgenerated, rfl⟩
  have halike := (h _ hs (.validate "sk-1" newYear) trivial).1
  cases halike

/-- SQLite takes a key that expires past the year 9999 to be expired. -/
theorem SqliteStore.not_accepts_of_year {sha256 : String → String} {token : String}
    {now e : DateTime} {row : KeyRecord String} (hrow : row.expiresAt = some (toRfc3339 e))
    (he : 9999 < e.year) (hnow : now.FourDigitYear) : accepts sha256 token now row = false := by
  have hnot : ¬toRfc3339 now < toRfc3339 e :=
    String.lt_asymm (toRfc3339_lt_of_lt_year hnow he)
  rw [accepts, hrow, Option.all_some, decide_eq_false hnot, Bool.and_false]

end Himadri
