import Himadri.Admin.Error
import Himadri.Admin.KeyStore
import Himadri.Core.Chrono

/-!
# The backends of the API keys

`ApiKeyStore`, `PostgresStore` and `SqliteStore`, operation by operation, with instants as `chrono`
has them: in memory and in Postgres a time is a `DateTime`, in SQLite it is RFC 3339 text that the
database compares as text. A record is taken over the type of its times.

Reading an id as a UUID, what Postgres keeps of an instant, and reading a text back as an instant
are arguments, and so is SHA-256. Columns of JSON hold what they are given. The ids and secrets an
operation generates are arguments of it.
-/

open Chrono

namespace Himadri

/-! ### Records -/

/-- `CreateApiKeyRequest`, and the fields of a key that it sets. -/
structure KeySettings (τ : Type) where
  name : String
  scopes : List String
  expiresAt : Option τ
  metadata : Option Json
  orgId : Option String
  teamId : Option String
  userId : Option String
  models : Option (List String)
  rateLimitOverride : Option RateLimitOverride
  tokenBudget : Option OrgTokenBudget

/-- The settings with another time of expiry. -/
def KeySettings.expiring {τ σ : Type} (s : KeySettings τ) (expiresAt : Option σ) :
    KeySettings σ where
  name := s.name
  scopes := s.scopes
  expiresAt
  metadata := s.metadata
  orgId := s.orgId
  teamId := s.teamId
  userId := s.userId
  models := s.models
  rateLimitOverride := s.rateLimitOverride
  tokenBudget := s.tokenBudget

/-- `ApiKey`, `ApiKeyRow` and `SqliteApiKeyRow`. -/
structure KeyRecord (τ : Type) extends KeySettings τ where
  id : String
  key : String
  enabled : Bool
  createdAt : τ
  lastUsedAt : Option τ
  usageCount : ℕ

/-- `UpdateApiKeyRequest`; the outer `none` keeps the current value. -/
structure UpdateKeyRequest where
  name : Option String
  scopes : Option (List String)
  enabled : Option Bool
  expiresAt : Option (Option DateTime)
  metadata : Option (Option Json)
  orgId : Option (Option String)
  teamId : Option (Option String)
  userId : Option (Option String)
  models : Option (Option (List String))
  rateLimitOverride : Option (Option RateLimitOverride)
  tokenBudget : Option (Option OrgTokenBudget)

/-- The settings an update leads to. -/
def UpdateKeyRequest.settings (request : UpdateKeyRequest) (current : KeySettings DateTime) :
    KeySettings DateTime where
  name := request.name.getD current.name
  scopes := request.scopes.getD current.scopes
  expiresAt := request.expiresAt.getD current.expiresAt
  metadata := request.metadata.getD current.metadata
  orgId := request.orgId.getD current.orgId
  teamId := request.teamId.getD current.teamId
  userId := request.userId.getD current.userId
  models := request.models.getD current.models
  rateLimitOverride := request.rateLimitOverride.getD current.rateLimitOverride
  tokenBudget := request.tokenBudget.getD current.tokenBudget

/-- `generate_api_key`. -/
def generateApiKey (uuid : String) : String := "sk-" ++ .ofList (uuid.toList.filter (· ≠ '-'))

namespace KeyRecord

variable {τ : Type}

/-- A new record. -/
def new (id key : String) (now : τ) (settings : KeySettings τ) : KeyRecord τ where
  toKeySettings := settings
  id
  key
  enabled := true
  createdAt := now
  lastUsedAt := none
  usageCount := 0

/-- What a `validate` that accepts makes of the record. -/
def touch (key : KeyRecord τ) (now : τ) : KeyRecord τ :=
  { key with lastUsedAt := some now, usageCount := key.usageCount + 1 }

/-- What an update makes of the record. -/
def amend (key : KeyRecord DateTime) (request : UpdateKeyRequest) : KeyRecord DateTime :=
  { key with
    toKeySettings := request.settings key.toKeySettings
    enabled := request.enabled.getD key.enabled }

/-- `mask_stored`. -/
def masked (key : KeyRecord τ) : KeyRecord τ := { key with key := maskedKeyDisplay key.key }

end KeyRecord

/-! ### In memory -/

/-- `ApiKeyStore`. -/
structure ApiKeyStore where
  keys : KeyMap String (KeyRecord DateTime)
  keysByKey : KeyMap String String

variable (sha256 : String → String)

namespace ApiKeyStore

variable (store : ApiKeyStore) (id uuid token : String) (now : DateTime)

/-- `ApiKeyStore::create`. -/
def create (request : KeySettings DateTime) : ApiKeyStore × KeyRecord DateTime :=
  let key := generateApiKey uuid
  let keyHash := hashApiKey sha256 key
  let apiKey := KeyRecord.new id keyHash now request
  (⟨store.keys.insert id apiKey, store.keysByKey.insert keyHash id⟩, { apiKey with key })

/-- `ApiKeyStore::get`. -/
def get : Option (KeyRecord DateTime) := (store.keys.get id).map .masked

/-- `ApiKeyStore::update`. -/
def update (request : UpdateKeyRequest) : ApiKeyStore × Option (KeyRecord DateTime) :=
  match store.keys.get id with
  | none => (store, none)
  | some key =>
    ({ store with keys := store.keys.insert id (key.amend request) },
      some (key.amend request).masked)

/-- `ApiKeyStore::delete`. -/
def delete : ApiKeyStore × Bool :=
  match store.keys.get id with
  | none => (store, false)
  | some key => (⟨store.keys.remove id, store.keysByKey.remove key.key⟩, true)

/-- `ApiKeyStore::validate`. -/
def validate : ApiKeyStore × Option (KeyRecord DateTime) :=
  match store.keysByKey.get (hashApiKey sha256 token) with
  | none => (store, none)
  | some id =>
    match store.keys.get id with
    | none => (store, none)
    | some entry =>
      if !entry.enabled then (store, none)
      else if entry.expiresAt.any (· < now) then (store, none)
      else
        ({ store with keys := store.keys.insert id (entry.touch now) },
          some (entry.touch now).masked)

/-- `ApiKeyStore::revoke`. -/
def revoke : ApiKeyStore × Bool :=
  match store.keys.get id with
  | none => (store, false)
  | some key => ({ store with keys := store.keys.insert id { key with enabled := false } }, true)

/-- `ApiKeyStore::rotate`. -/
def rotate : ApiKeyStore × Option (KeyRecord DateTime) :=
  match store.keys.get id with
  | none => (store, none)
  | some oldKey =>
    let newKey := generateApiKey uuid
    let newHash := hashApiKey sha256 newKey
    let stored := { oldKey with key := newHash }
    (⟨store.keys.insert id stored, (store.keysByKey.remove oldKey.key).insert newHash id⟩,
      some { stored with key := newKey })

end ApiKeyStore

/-! ### Statements on the table -/

namespace KeyTable

variable {τ : Type} (rows : List (KeyRecord τ))

/-- `SELECT … WHERE id = …`. -/
def select (id : String) : Option (KeyRecord τ) := rows.find? (·.id == id)

/-- `INSERT`; ids and keys are unique. -/
def insert (row : KeyRecord τ) : Except AdminError (List (KeyRecord τ)) :=
  if rows.any fun r ↦ r.id == row.id || r.key == row.key then .error .store
  else .ok (rows ++ [row])

/-- `UPDATE … WHERE …`, which must leave the keys unique. -/
def update (selects : KeyRecord τ → Bool) (f : KeyRecord τ → KeyRecord τ) :
    Except AdminError (List (KeyRecord τ)) :=
  let rows' := rows.map fun row ↦ if selects row then f row else row
  if (rows'.map (·.key)).Nodup then .ok rows' else .error .store

/-- `DELETE … WHERE id = …`. -/
def delete (id : String) : List (KeyRecord τ) := rows.filter (·.id != id)

end KeyTable

/-- A row that the `UPDATE` of `validate` finds the token in: under its hash, or in plaintext. -/
def storesToken {τ : Type} (dialect : SqlDialect) (token : String) (row : KeyRecord τ) : Bool :=
  row.key == hashApiKey sha256 token || (row.key == token && !dialect.isHashed row.key)

/-! ### Postgres -/

namespace PostgresStore

/-- A column `VARCHAR(255)` takes the text. -/
def varchar (s : String) : Bool := s.length ≤ 255 && !s.toList.contains (.ofNat 0)

variable (parseUuid : String → Option String) (timestamptz : DateTime → Option DateTime)
  (rows : List (KeyRecord DateTime)) (id uuid token : String) (now : DateTime)

/-- The settings as their columns keep them. -/
def bind (settings : KeySettings DateTime) : Except AdminError (KeySettings DateTime) :=
  if varchar settings.name && settings.orgId.all varchar && settings.teamId.all varchar &&
      settings.userId.all varchar then
    match settings.expiresAt with
    | none => .ok settings
    | some e =>
      match timestamptz e with
      | none => .error .store
      | some e' => .ok (settings.expiring (some e'))
  else .error .store

/-- `PostgresStore::create`. -/
def create (request : KeySettings DateTime) :
    Except AdminError (List (KeyRecord DateTime) × KeyRecord DateTime) := do
  let key := generateApiKey uuid
  let settings ← bind timestamptz request
  let row := KeyRecord.new id (hashApiKey sha256 key) now settings
  let rows' ← KeyTable.insert rows row
  return (rows', { row with key })

/-- `PostgresStore::get`. -/
def get : Except AdminError (Option (KeyRecord DateTime)) :=
  match parseUuid id with
  | none => .error .notFound
  | some uuid => .ok ((KeyTable.select rows uuid).map .masked)

/-- `PostgresStore::update`. -/
def update (request : UpdateKeyRequest) :
    Except AdminError (List (KeyRecord DateTime) × Option (KeyRecord DateTime)) :=
  match parseUuid id with
  | none => .error .notFound
  | some uuid =>
    match (KeyTable.select rows uuid).map KeyRecord.masked with
    | none => .ok (rows, none)
    | some current => do
      let settings ← bind timestamptz (request.settings current.toKeySettings)
      let enabled := request.enabled.getD current.enabled
      let rows' ← KeyTable.update rows (·.id == uuid) fun row ↦
        { row with toKeySettings := settings, enabled }
      return (rows', (KeyTable.select rows' uuid).map .masked)

/-- `PostgresStore::delete`. -/
def delete : Except AdminError (List (KeyRecord DateTime) × Bool) :=
  match parseUuid id with
  | none => .error .notFound
  | some uuid => .ok (KeyTable.delete rows uuid, (KeyTable.select rows uuid).isSome)

/-- The condition of the `UPDATE` of `validate`. -/
def accepts (row : KeyRecord DateTime) : Bool :=
  storesToken sha256 .postgres token row && row.enabled && row.expiresAt.all (now < ·)

/-- `PostgresStore::validate`; a text parameter has no zero byte. -/
def validate : Except AdminError (List (KeyRecord DateTime) × Option (KeyRecord DateTime)) :=
  if token.toList.contains (.ofNat 0) then .error .store
  else do
    let f (row : KeyRecord DateTime) := { row.touch now with key := hashApiKey sha256 token }
    let rows' ← KeyTable.update rows (accepts sha256 token now) f
    return (rows', (rows.find? (accepts sha256 token now)).map fun row ↦ (f row).masked)

/-- `PostgresStore::revoke`. -/
def revoke : Except AdminError (List (KeyRecord DateTime) × Bool) :=
  match parseUuid id with
  | none => .error .notFound
  | some uuid => do
    let rows' ← KeyTable.update rows (·.id == uuid) ({ · with enabled := false })
    return (rows', (KeyTable.select rows uuid).isSome)

/-- `PostgresStore::rotate`. -/
def rotate : Except AdminError (List (KeyRecord DateTime) × Option (KeyRecord DateTime)) :=
  match parseUuid id with
  | none => .error .notFound
  | some key => do
    let newKey := generateApiKey uuid
    let rows' ← KeyTable.update rows (·.id == key) ({ · with key := hashApiKey sha256 newKey })
    return (rows', (KeyTable.select rows' key).map ({ · with key := newKey }))

end PostgresStore

/-! ### SQLite -/

/-- `DateTime::default`: the Unix epoch. -/
def unixEpoch : DateTime where
  year := 1970
  ordinal := 1
  secs := 0
  frac := 0
  ordinal_pos := Nat.one_pos
  ordinal_le := Nat.le_of_ble_eq_true rfl
  secs_lt := Nat.le_of_ble_eq_true rfl
  frac_lt := Nat.le_of_ble_eq_true rfl
  leap h := absurd h (Nat.not_le_of_lt (Nat.le_of_ble_eq_true rfl))

namespace SqliteStore

variable (parse : String → Option DateTime) (rows : List (KeyRecord String))
  (id uuid token : String) (now : DateTime)

/-- The settings as their columns keep them. -/
def bind (settings : KeySettings DateTime) : KeySettings String :=
  settings.expiring (settings.expiresAt.map toRfc3339)

/-- The conversion of a row. -/
def ofRow (row : KeyRecord String) : KeyRecord DateTime where
  toKeySettings := row.expiring (row.expiresAt.bind parse)
  id := row.id
  key := maskedKeyDisplay row.key
  enabled := row.enabled
  createdAt := (parse row.createdAt).getD unixEpoch
  lastUsedAt := row.lastUsedAt.bind parse
  usageCount := row.usageCount

/-- `SqliteStore::get`. -/
def get : Option (KeyRecord DateTime) := (KeyTable.select rows id).map (ofRow parse)

/-- `SqliteStore::create`. -/
def create (request : KeySettings DateTime) :
    Except AdminError (List (KeyRecord String) × KeyRecord DateTime) := do
  let key := generateApiKey uuid
  let rows' ← KeyTable.insert rows
    (KeyRecord.new id (hashApiKey sha256 key) (toRfc3339 now) (bind request))
  match get parse rows' id with
  | none => .error .notFound
  | some stored => return (rows', { stored with key })

/-- `SqliteStore::update`. -/
def update (request : UpdateKeyRequest) :
    Except AdminError (List (KeyRecord String) × Option (KeyRecord DateTime)) :=
  match get parse rows id with
  | none => .error .notFound
  | some current => do
    let settings := bind (request.settings current.toKeySettings)
    let enabled := request.enabled.getD current.enabled
    let rows' ← KeyTable.update rows (·.id == id) fun row ↦
      { row with toKeySettings := settings, enabled }
    return (rows', get parse rows' id)

/-- `SqliteStore::delete`. -/
def delete : List (KeyRecord String) × Bool :=
  (KeyTable.delete rows id, (KeyTable.select rows id).isSome)

/-- The condition of the `UPDATE` of `validate`; text is compared byte by byte. -/
def accepts (row : KeyRecord String) : Bool :=
  storesToken sha256 .sqlite token row && row.enabled && row.expiresAt.all (toRfc3339 now < ·)

/-- `SqliteStore::validate`. -/
def validate : Except AdminError (List (KeyRecord String) × Option (KeyRecord DateTime)) := do
  let f (row : KeyRecord String) :=
    { row.touch (toRfc3339 now) with key := hashApiKey sha256 token }
  let rows' ← KeyTable.update rows (accepts sha256 token now) f
  return (rows', (rows.find? (accepts sha256 token now)).map fun row ↦ ofRow parse (f row))

/-- `SqliteStore::revoke`. -/
def revoke : Except AdminError (List (KeyRecord String) × Bool) := do
  let rows' ← KeyTable.update rows (·.id == id) ({ · with enabled := false })
  return (rows', (KeyTable.select rows id).isSome)

/-- `SqliteStore::rotate`. -/
def rotate : Except AdminError (List (KeyRecord String) × Option (KeyRecord DateTime)) := do
  let newKey := generateApiKey uuid
  let rows' ← KeyTable.update rows (·.id == id) ({ · with key := hashApiKey sha256 newKey })
  return (rows', (get parse rows' id).map ({ · with key := newKey }))

end SqliteStore

end Himadri
