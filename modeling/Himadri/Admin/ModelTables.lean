import Himadri.Admin.Crypto
import Himadri.Admin.Error
import Himadri.Admin.KeyBackends
import Himadri.Admin.RowUpdates
import Himadri.Core.Lists

/-!
# The stores of models and endpoints

`ModelStore` and `ModelEndpointStore` of SQLite, and their Postgres equivalents, on the two tables.
The dialects differ in what an id denotes, in what their columns take, and in the foreign key from
`model_endpoints` to `models`, which only Postgres has. Endpoints are stored with their keys
encrypted, by the cipher that the process at hand was given, and are read with it.

The ids that the stores draw are arguments, as are the nonces; timestamps are left out.
-/

namespace Himadri

/-! ### The tables -/

/-- The tables `models` and `model_endpoints`; of an endpoint, its key as the column has it. -/
structure ModelTables where
  models : List StoredModel
  endpoints : List ModelEndpoint

namespace SqlDialect

/-- A column `TEXT` takes the text: Postgres has no zero byte. -/
def text (dialect : SqlDialect) (s : String) : Bool :=
  match dialect with
  | .postgres => !s.toList.contains (.ofNat 0)
  | .sqlite => true

/-- A column `VARCHAR(255)` takes the text, which is `TEXT` in SQLite. -/
def varchar (dialect : SqlDialect) (s : String) : Bool :=
  match dialect with
  | .postgres => PostgresStore.varchar s
  | .sqlite => true

end SqlDialect

/-- The columns take the model. -/
def StoredModel.storable (dialect : SqlDialect) (model : StoredModel) : Bool :=
  dialect.varchar model.name && model.displayName.all dialect.varchar

/-- The columns take the endpoint. -/
def ModelEndpoint.storable (dialect : SqlDialect) (endpoint : ModelEndpoint) : Bool :=
  dialect.varchar endpoint.providerType && endpoint.baseUrl.all dialect.text &&
    endpoint.apiKey.all dialect.text

namespace ModelTables

variable (dialect : SqlDialect) (t : ModelTables) (key : String)

/-- `SELECT … FROM models WHERE id = …`. -/
def model : Option StoredModel := t.models.find? (·.id == key)

/-- `SELECT … FROM model_endpoints WHERE id = …`. -/
def endpoint : Option ModelEndpoint := t.endpoints.find? (·.id == key)

/-- `UPDATE models … WHERE id = …`. -/
def updateModel (f : StoredModel → StoredModel) : Except AdminError ModelTables :=
  if (t.models.filter (·.id == key)).all fun row ↦ (f row).storable dialect then
    .ok { t with models := t.models.map fun row ↦ if row.id == key then f row else row }
  else .error .store

/-- `INSERT INTO model_endpoints`. -/
def insertEndpoint (row : ModelEndpoint) : Except AdminError ModelTables :=
  if row.storable dialect && (t.endpoint row.id).isNone &&
      (dialect == .sqlite || (t.model row.modelId).isSome) then
    .ok { t with endpoints := t.endpoints ++ [row] }
  else .error .store

/-- `UPDATE model_endpoints … WHERE id = …`. -/
def updateEndpoint (f : ModelEndpoint → ModelEndpoint) : Except AdminError ModelTables :=
  if (t.endpoints.filter (·.id == key)).all fun row ↦ (f row).storable dialect then
    .ok { t with endpoints := t.endpoints.map fun row ↦ if row.id == key then f row else row }
  else .error .store

variable {dialect t key} {t' : ModelTables}

theorem updateModel_ok {f : StoredModel → StoredModel} (h : t.updateModel dialect key f = .ok t') :
    t' = { t with models := t.models.map fun row ↦ if row.id == key then f row else row } := by
  rw [updateModel] at h
  split at h
  · cases h
    rfl
  · cases h

theorem updateEndpoint_ok {f : ModelEndpoint → ModelEndpoint}
    (h : t.updateEndpoint dialect key f = .ok t') :
    t' =
      { t with endpoints := t.endpoints.map fun row ↦ if row.id == key then f row else row } := by
  rw [updateEndpoint] at h
  split at h
  · cases h
    rfl
  · cases h

theorem insertEndpoint_ok {row : ModelEndpoint} (h : t.insertEndpoint dialect row = .ok t') :
    t' = { t with endpoints := t.endpoints ++ [row] } ∧ (∀ r ∈ t.endpoints, r.id ≠ row.id) ∧
      (dialect = .sqlite ∨ (t.model row.modelId).isSome) := by
  rw [insertEndpoint] at h
  split at h
  · next hfits =>
    cases h
    rw [Bool.and_eq_true, Bool.and_eq_true, Bool.or_eq_true, beq_iff_eq,
      Option.isNone_iff_eq_none] at hfits
    refine ⟨rfl, fun r hr heq ↦ ?_, hfits.2⟩
    exact List.find?_eq_none.1 hfits.1.2 r hr (beq_iff_eq.2 heq)
  · cases h

/-- The row that an update leaves under the key. -/
theorem model_of_update {f : StoredModel → StoredModel} (hid : ∀ row, (f row).id = row.id)
    (h : t.updateModel dialect key f = .ok t') : t'.model key = (t.model key).map f := by
  rw [model, updateModel_ok h]
  exact Lists.find?_update (fun row hrow ↦ by rwa [hid]) t.models

/-- The row that an update leaves under the key. -/
theorem endpoint_of_update {f : ModelEndpoint → ModelEndpoint} (hid : ∀ row, (f row).id = row.id)
    (h : t.updateEndpoint dialect key f = .ok t') : t'.endpoint key = (t.endpoint key).map f := by
  rw [endpoint, updateEndpoint_ok h]
  exact Lists.find?_update (fun row hrow ↦ by rwa [hid]) t.endpoints

end ModelTables

/-- What the two statements of an update write back. -/
theorem ModelEndpoint.writeBack_eq (request : UpdateModelEndpointRequest)
    (current row : ModelEndpoint) :
    writeBack request current row =
      { row with
        providerType := request.providerType.getD current.providerType
        baseUrl := request.baseUrl.getD current.baseUrl
        apiKey := request.apiKey.getD row.apiKey
        weight := request.weight.getD current.weight
        enabled := request.enabled.getD current.enabled } := by
  obtain ⟨providerType, baseUrl, apiKey, weight, enabled⟩ := request
  rcases apiKey with - | apiKey <;> rfl

/-! ### Models -/

/-- `ModelStore` and `PgModelStore`. -/
structure ModelStore where
  dialect : SqlDialect
  /-- `Uuid::parse_str`, and the UUID printed. -/
  parseUuid : String → Option String

namespace ModelStore

variable (store : ModelStore) (t : ModelTables) (id : String)

/-- The row that an id denotes. -/
def rowKey : Option String := store.dialect.rowKey store.parseUuid id

/-- `ModelStore::get`. -/
def get : Option StoredModel := (store.rowKey id).bind t.model

/-- `ModelStore::update`. -/
def update (request : UpdateModelRequest) :
    Except AdminError (ModelTables × Option StoredModel) :=
  match store.rowKey id, store.get t id with
  | some key, some current => do
    let t' ← t.updateModel store.dialect key (StoredModel.writeBack request current)
    return (t', store.get t' id)
  | _, _ => .error .notFound

end ModelStore

/-! ### Endpoints -/

/-- `CreateModelEndpointRequest`. -/
structure CreateModelEndpointRequest where
  providerType : String
  baseUrl : Option String
  apiKey : Option String
  weight : ℚ
  enabled : Bool

/-- `ModelEndpointStore` and `PgModelEndpointStore`, with the cipher of their process. -/
structure ModelEndpointStore (κ : Type) extends ModelStore where
  cipher : Option κ

namespace ModelEndpointStore

variable {κ : Type} (gcm : Aes256Gcm κ) (store : ModelEndpointStore κ) (t : ModelTables)
  (id uuid modelId : String) (nonce : Nonce)

/-- `encrypt_api_key`. -/
def encryptApiKey (apiKey : Option String) : Option String :=
  encryptEndpointApiKey gcm store.cipher nonce apiKey

/-- `ModelEndpointStore::get`. -/
def get : Option ModelEndpoint :=
  ((store.rowKey id).bind t.endpoint).map (decryptEndpoint gcm store.cipher)

/-- `ModelEndpointStore::list`, in the order of the table. -/
def list : List ModelEndpoint := t.endpoints.map (decryptEndpoint gcm store.cipher)

/-- `ModelEndpointStore::list_by_model`. -/
def listByModel : List ModelEndpoint :=
  match store.rowKey modelId with
  | none => []
  | some key => (t.endpoints.filter (·.modelId == key)).map (decryptEndpoint gcm store.cipher)

/-- `ModelEndpointStore::create`. -/
def create (request : CreateModelEndpointRequest) :
    Except AdminError (ModelTables × ModelEndpoint) :=
  match store.rowKey modelId with
  | none => .error .notFound
  | some model =>
    if (t.model model).isNone then .error .notFound
    else do
      let row : ModelEndpoint :=
        { id := uuid, modelId := model, providerType := request.providerType,
          baseUrl := request.baseUrl, apiKey := store.encryptApiKey gcm nonce request.apiKey,
          weight := request.weight, enabled := request.enabled }
      let t' ← t.insertEndpoint store.dialect row
      return (t', { row with modelId, apiKey := request.apiKey })

/-- The request with its key as the column is to have it. -/
def sealRequest (request : UpdateModelEndpointRequest) : UpdateModelEndpointRequest :=
  { request with apiKey := request.apiKey.map (store.encryptApiKey gcm nonce) }

/-- `ModelEndpointStore::update`. -/
def update (request : UpdateModelEndpointRequest) :
    Except AdminError (ModelTables × Option ModelEndpoint) :=
  match store.rowKey id, store.get gcm t id with
  | some key, some current => do
    let t' ← t.updateEndpoint store.dialect key
      (ModelEndpoint.writeBack (store.sealRequest gcm nonce request) current)
    return (t', store.get gcm t' id)
  | _, _ => .error .notFound

/-- `ModelEndpointStore::toggle`. -/
def toggle (enabled : Bool) : Except AdminError (ModelTables × Option ModelEndpoint) :=
  match store.rowKey id with
  | none => .ok (t, none)
  | some key => do
    let t' ← t.updateEndpoint store.dialect key ({ · with enabled })
    return (t', store.get gcm t' id)

end ModelEndpointStore

end Himadri
