import Himadri.Admin.KeyParity
import Himadri.Admin.ModelTables
import Himadri.Core.Serde

/-!
# The bodies of the update routes

`PUT` of a key, a model or an endpoint: the body is deserialized to the request, and the store
merges the request into what it has. Parsing an instant is an argument.

A body is to leave alone what it does not mention, to empty what it gives as `null` and to set what
it gives a value (`KeyPatched`, `ModelPatched`, `EndpointPatched`). In every store it does, exactly
when nothing that is given as `null` had a value (`updates_patch`).
-/

open Chrono

namespace Himadri

open Serde

section Requests

variable (fromStr : String → Option DateTime) (members : List (String × Json))

/-! ### The requests -/

/-- `DateTime<Utc>`. -/
def dateTime (v : Json) : Option DateTime := (string v).bind fromStr

/-- `RateLimitOverride`. -/
def RateLimitOverride.deserialize : Json → Option RateLimitOverride
  | .object members => do
    let requestsPerSecond ← field members "requests_per_second" none (option (unsigned UInt64.size))
    let burstSize ← field members "burst_size" none (option (unsigned UInt64.size))
    return { requestsPerSecond, burstSize }
  | .array [r, b] => do
    let requestsPerSecond ← option (unsigned UInt64.size) r
    let burstSize ← option (unsigned UInt64.size) b
    return { requestsPerSecond, burstSize }
  | _ => none

/-- `OrgTokenBudget`. -/
def OrgTokenBudget.deserialize : Json → Option OrgTokenBudget
  | .object members => do
    let maxTokensPerRequest ←
      field members "max_tokens_per_request" none (option (unsigned UInt32.size))
    let maxTokensPerDay ← field members "max_tokens_per_day" none (option (unsigned UInt64.size))
    let maxTokensPerMonth ←
      field members "max_tokens_per_month" none (option (unsigned UInt64.size))
    let costLimitPerDay ← field members "cost_limit_per_day" none (option f64)
    let costLimitPerMonth ← field members "cost_limit_per_month" none (option f64)
    return { maxTokensPerRequest, maxTokensPerDay, maxTokensPerMonth, costLimitPerDay,
             costLimitPerMonth }
  | .array items =>
    if items.length ≤ 5 then do
      let maxTokensPerRequest ← element items 0 none (option (unsigned UInt32.size))
      let maxTokensPerDay ← element items 1 none (option (unsigned UInt64.size))
      let maxTokensPerMonth ← element items 2 none (option (unsigned UInt64.size))
      let costLimitPerDay ← element items 3 none (option f64)
      let costLimitPerMonth ← element items 4 none (option f64)
      return { maxTokensPerRequest, maxTokensPerDay, maxTokensPerMonth, costLimitPerDay,
               costLimitPerMonth }
    else none
  | _ => none

/-- `UpdateApiKeyRequest`. -/
def UpdateKeyRequest.deserialize : Option UpdateKeyRequest := do
  let name ← field members "name" none (option string)
  let scopes ← field members "scopes" none (option (array string))
  let enabled ← field members "enabled" none (option bool)
  let expiresAt ← field members "expires_at" none (option (option (dateTime fromStr)))
  let metadata ← field members "metadata" none (option (option value))
  let orgId ← field members "org_id" none (option (option string))
  let teamId ← field members "team_id" none (option (option string))
  let userId ← field members "user_id" none (option (option string))
  let models ← field members "models" none (option (option (array string)))
  let rateLimitOverride ←
    field members "rate_limit_override" none (option (option RateLimitOverride.deserialize))
  let tokenBudget ← field members "token_budget" none (option (option OrgTokenBudget.deserialize))
  return { name, scopes, enabled, expiresAt, metadata, orgId, teamId, userId, models,
           rateLimitOverride, tokenBudget }

/-- `UpdateModelRequest`. -/
def UpdateModelRequest.deserialize : Option UpdateModelRequest := do
  let name ← field members "name" none (option string)
  let displayName ← field members "display_name" none (option (option string))
  let enabled ← field members "enabled" none (option bool)
  return { name, displayName, enabled }

/-- `UpdateModelEndpointRequest`. -/
def UpdateModelEndpointRequest.deserialize : Option UpdateModelEndpointRequest := do
  let providerType ← field members "provider_type" none (option string)
  let baseUrl ← field members "base_url" none (option (option string))
  let apiKey ← field members "api_key" none (option (option string))
  let weight ← field members "weight" none (option f64)
  let enabled ← field members "enabled" none (option bool)
  return { providerType, baseUrl, apiKey, weight, enabled }

/-! ### What the bodies say -/

/-- The key is what the body makes of it. -/
structure KeyPatched (before after : KeyView) : Prop where
  name : Kept (member members "name") string before.settings.name after.settings.name
  scopes : Kept (member members "scopes") (array string) before.settings.scopes
    after.settings.scopes
  enabled : Kept (member members "enabled") bool before.enabled after.enabled
  expiresAt : Patched (member members "expires_at") (dateTime fromStr) some
    before.settings.expiresAt after.settings.expiresAt
  metadata : Patched (member members "metadata") value some before.settings.metadata
    after.settings.metadata
  orgId : Patched (member members "org_id") string some before.settings.orgId after.settings.orgId
  teamId : Patched (member members "team_id") string some before.settings.teamId
    after.settings.teamId
  userId : Patched (member members "user_id") string some before.settings.userId
    after.settings.userId
  models : Patched (member members "models") (array string) some before.settings.models
    after.settings.models
  rateLimitOverride : Patched (member members "rate_limit_override")
    RateLimitOverride.deserialize some before.settings.rateLimitOverride
    after.settings.rateLimitOverride
  tokenBudget : Patched (member members "token_budget") OrgTokenBudget.deserialize some
    before.settings.tokenBudget after.settings.tokenBudget

/-- What is given as `null` is empty already. -/
structure KeyNullsEmpty (before : KeyView) : Prop where
  expiresAt : member members "expires_at" = some .null → before.settings.expiresAt = none
  metadata : member members "metadata" = some .null → before.settings.metadata = none
  orgId : member members "org_id" = some .null → before.settings.orgId = none
  teamId : member members "team_id" = some .null → before.settings.teamId = none
  userId : member members "user_id" = some .null → before.settings.userId = none
  models : member members "models" = some .null → before.settings.models = none
  rateLimitOverride : member members "rate_limit_override" = some .null →
    before.settings.rateLimitOverride = none
  tokenBudget : member members "token_budget" = some .null → before.settings.tokenBudget = none

/-- The model is what the body makes of it. -/
structure ModelPatched (before after : StoredModel) : Prop where
  name : Kept (member members "name") string before.name after.name
  displayName : Patched (member members "display_name") string some before.displayName
    after.displayName
  enabled : Kept (member members "enabled") bool before.enabled after.enabled

/-- The row of the endpoint is what the body makes of it; its key is stored for `read`. -/
structure EndpointPatched (read : String → Option String) (before after : ModelEndpoint) :
    Prop where
  providerType : Kept (member members "provider_type") string before.providerType
    after.providerType
  baseUrl : Patched (member members "base_url") string some before.baseUrl after.baseUrl
  apiKey : Patched (member members "api_key") string read before.apiKey after.apiKey
  weight : Kept (member members "weight") f64 before.weight after.weight
  enabled : Kept (member members "enabled") bool before.enabled after.enabled

/-- What is given as `null` is empty already. -/
structure EndpointNullsEmpty (before : ModelEndpoint) : Prop where
  baseUrl : member members "base_url" = some .null → before.baseUrl = none
  apiKey : member members "api_key" = some .null → before.apiKey = none

end Requests

section Merges

variable {fromStr : String → Option DateTime} {members : List (String × Json)}

/-! ### What the merges make of them -/

/-- **The merge of the stores of keys.** -/
theorem keyPatched_iff {request : UpdateKeyRequest}
    (h : UpdateKeyRequest.deserialize fromStr members = some request) (key : KeyRecord DateTime) :
    KeyPatched fromStr members key.view (key.amend request).view ↔
      KeyNullsEmpty members key.view := by
  simp only [UpdateKeyRequest.deserialize, Option.bind_eq_bind, Option.bind_eq_some_iff] at h
  obtain ⟨name, hname, scopes, hscopes, enabled, henabled, expiresAt, hexpires, metadata, hmetadata,
    orgId, horg, teamId, hteam, userId, huser, models, hmodels, rate, hrate, budget, hbudget,
    h⟩ := h
  cases h
  constructor
  · intro h
    exact ⟨(patched_plain_iff hexpires).1 h.expiresAt, (patched_plain_iff hmetadata).1 h.metadata,
      (patched_plain_iff horg).1 h.orgId, (patched_plain_iff hteam).1 h.teamId,
      (patched_plain_iff huser).1 h.userId, (patched_plain_iff hmodels).1 h.models,
      (patched_plain_iff hrate).1 h.rateLimitOverride, (patched_plain_iff hbudget).1 h.tokenBudget⟩
  · intro h
    exact ⟨kept_of_field hname, kept_of_field hscopes, kept_of_field henabled,
      (patched_plain_iff hexpires).2 h.expiresAt, (patched_plain_iff hmetadata).2 h.metadata,
      (patched_plain_iff horg).2 h.orgId, (patched_plain_iff hteam).2 h.teamId,
      (patched_plain_iff huser).2 h.userId, (patched_plain_iff hmodels).2 h.models,
      (patched_plain_iff hrate).2 h.rateLimitOverride, (patched_plain_iff hbudget).2 h.tokenBudget⟩

/-- **The merge of the stores of models.** -/
theorem modelPatched_iff {request : UpdateModelRequest}
    (h : UpdateModelRequest.deserialize members = some request) (model : StoredModel) :
    ModelPatched members model (model.writeBack request model) ↔
      (member members "display_name" = some .null → model.displayName = none) := by
  simp only [UpdateModelRequest.deserialize, Option.bind_eq_bind, Option.bind_eq_some_iff] at h
  obtain ⟨name, hname, displayName, hdisplay, enabled, henabled, h⟩ := h
  cases h
  constructor
  · exact fun h ↦ (patched_plain_iff hdisplay).1 h.displayName
  · exact fun h ↦ ⟨kept_of_field hname, (patched_plain_iff hdisplay).2 h, kept_of_field henabled⟩

/-- What a process encrypts it decrypts. -/
theorem decryptApiKey_encrypt {κ : Type} (gcm : Aes256Gcm κ) (cipher : Option κ) (nonce : Nonce)
    (s : String) :
    decryptApiKey gcm cipher (encryptEndpointApiKey gcm cipher nonce (some s)) = some s := by
  have hlegible : Legible (some s) cipher cipher := fun _ _ ↦
    ⟨fun hnone ↦ .inl hnone, fun hne hnone ↦ absurd hnone hne⟩
  exact ((restores_iff gcm nonce cipher cipher (some s)).2 hlegible).2 (.inl rfl)

/-- **The merge of the stores of endpoints**, with the key encrypted. -/
theorem endpointPatched_iff {κ : Type} {gcm : Aes256Gcm κ} {store : ModelEndpointStore κ}
    (nonce : Nonce) {request : UpdateModelEndpointRequest}
    (h : UpdateModelEndpointRequest.deserialize members = some request) (row : ModelEndpoint) :
    EndpointPatched members (fun key ↦ decryptApiKey gcm store.cipher (some key)) row
        (ModelEndpoint.writeBack (store.sealRequest gcm nonce request)
          (decryptEndpoint gcm store.cipher row) row) ↔
      EndpointNullsEmpty members row := by
  simp only [UpdateModelEndpointRequest.deserialize, Option.bind_eq_bind,
    Option.bind_eq_some_iff] at h
  obtain ⟨providerType, hprovider, baseUrl, hbase, apiKey, hkey, weight, hweight, enabled, henabled,
    h⟩ := h
  cases h
  have hread (s : String) : (encryptEndpointApiKey gcm store.cipher nonce (some s)).bind
      (fun key ↦ decryptApiKey gcm store.cipher (some key)) = some s := by
    have hself := decryptApiKey_encrypt gcm store.cipher nonce s
    rcases hcolumn : encryptEndpointApiKey gcm store.cipher nonce (some s) with - | key
    · rw [hcolumn] at hself
      rcases hcipher : store.cipher with - | k <;> rw [hcipher] at hself <;> cases hself
    · rwa [hcolumn] at hself
  rw [ModelEndpoint.writeBack_eq]
  constructor
  · intro h
    exact ⟨(patched_plain_iff hbase).1 h.baseUrl, (Serde.patched_iff _ hkey hread).1 h.apiKey⟩
  · intro h
    exact ⟨kept_of_field hprovider, (patched_plain_iff hbase).2 h.baseUrl,
      (Serde.patched_iff _ hkey hread).2 h.apiKey, kept_of_field hweight, kept_of_field henabled⟩

end Merges

/-! ### The stores -/

section Stores

variable {sha256 : String → String} {drivers : SqlDrivers} {fromStr : String → Option DateTime}
  {members : List (String × Json)} {id : String} {request : UpdateKeyRequest} {before : KeyView}

/-- The store in memory. -/
theorem ApiKeyStore.patched_iff (store : ApiKeyStore)
    (hbody : UpdateKeyRequest.deserialize fromStr members = some request)
    (hbefore : (store.run sha256 (.get id)).2 = .found before) :
    ∃ after, ((store.run sha256 (.update id request)).1.run sha256 (.get id)).2 = .found after ∧
      (KeyPatched fromStr members before after ↔ KeyNullsEmpty members before) := by
  rcases hk : store.keys.get id with - | key
  · simp only [run, get, hk, KeyOutcome.settle, Option.map_none, KeyOutcome.ofKey] at hbefore
    cases hbefore
  · simp only [run, get, hk, KeyOutcome.settle, Option.map_some, KeyOutcome.ofKey] at hbefore
    cases hbefore
    refine ⟨(key.masked.amend request).view, ?_, keyPatched_iff hbody key.masked⟩
    simp only [run, update, get, hk, KeyOutcome.settle, KeyMap.get_insert_self, Option.map_some,
      KeyOutcome.ofKey]
    rfl

/-- The stores of a run in which the backends agree. -/
theorem KeyStores.Agree.patched_iff {s : KeyStores} (h : s.Agree sha256 drivers)
    (hbody : UpdateKeyRequest.deserialize fromStr members = some request)
    (hcommon : s.memory.Common sha256 drivers (.update id request)) :
    ((PostgresStore.run sha256 drivers s.postgres (.get id)).2 = .found before →
      ∃ after, (PostgresStore.run sha256 drivers
        (PostgresStore.run sha256 drivers s.postgres (.update id request)).1 (.get id)).2 =
          .found after ∧ (KeyPatched fromStr members before after ↔ KeyNullsEmpty members before)) ∧
    ((SqliteStore.run sha256 drivers s.sqlite (.get id)).2 = .found before →
      ∃ after, (SqliteStore.run sha256 drivers
        (SqliteStore.run sha256 drivers s.sqlite (.update id request)).1 (.get id)).2 =
          .found after ∧
        (KeyPatched fromStr members before after ↔ KeyNullsEmpty members before)) := by
  have halike : s.AnswerAlike sha256 drivers (.get id) := h.answerAlike trivial hcommon.1
  have hnext : (s.next sha256 drivers (.update id request)).Agree sha256 drivers :=
    h.next trivial hcommon
  have halike' : (s.next sha256 drivers (.update id request)).AnswerAlike sha256 drivers
      (.get id) := hnext.answerAlike trivial hcommon.1
  obtain ⟨hpostgres, hsqlite⟩ := halike
  obtain ⟨hpostgres', hsqlite'⟩ := halike'
  constructor
  · intro hbefore
    rw [hpostgres] at hbefore
    obtain ⟨after, hafter, hiff⟩ := s.memory.patched_iff hbody hbefore
    exact ⟨after, hpostgres'.trans hafter, hiff⟩
  · intro hbefore
    rw [hsqlite] at hbefore
    obtain ⟨after, hafter, hiff⟩ := s.memory.patched_iff hbody hbefore
    exact ⟨after, hsqlite'.trans hafter, hiff⟩

/-- The stores of models. -/
theorem ModelStore.patched_iff {store : ModelStore} {t t' : ModelTables} {before : StoredModel}
    {request : UpdateModelRequest} {answer : Option StoredModel}
    (hbody : UpdateModelRequest.deserialize members = some request)
    (hbefore : store.get t id = some before)
    (hupdate : store.update t id request = .ok (t', answer)) :
    ∃ after, store.get t' id = some after ∧
      (ModelPatched members before after ↔
        (member members "display_name" = some .null → before.displayName = none)) := by
  obtain ⟨key, hkey, hmodel⟩ := Option.bind_eq_some_iff.1 hbefore
  simp only [update, hkey, hbefore] at hupdate
  obtain ⟨t₁, hrows, heq⟩ := Except.bind_eq_ok hupdate
  cases heq
  refine ⟨StoredModel.writeBack request before before, ?_, modelPatched_iff hbody before⟩
  have hid (row : StoredModel) : (StoredModel.writeBack request before row).id = row.id := rfl
  rw [get, hkey, Option.bind_some, ModelTables.model_of_update hid hrows, hmodel]
  rfl

/-- The stores of endpoints; the row is as the table has it. -/
theorem ModelEndpointStore.patched_iff {κ : Type} {gcm : Aes256Gcm κ}
    {store : ModelEndpointStore κ} {t t' : ModelTables} {nonce : Nonce} {before : ModelEndpoint}
    {request : UpdateModelEndpointRequest} {answer : Option ModelEndpoint}
    (hbody : UpdateModelEndpointRequest.deserialize members = some request)
    (hbefore : (store.rowKey id).bind t.endpoint = some before)
    (hupdate : store.update gcm t id nonce request = .ok (t', answer)) :
    ∃ after, (store.rowKey id).bind t'.endpoint = some after ∧
      (EndpointPatched members (fun key ↦ decryptApiKey gcm store.cipher (some key)) before after ↔
        EndpointNullsEmpty members before) := by
  obtain ⟨key, hkey, hrow⟩ := Option.bind_eq_some_iff.1 hbefore
  have hget : store.get gcm t id = some (decryptEndpoint gcm store.cipher before) := by
    rw [get, hbefore, Option.map_some]
  simp only [update, hkey, hget] at hupdate
  obtain ⟨t₁, hrows, heq⟩ := Except.bind_eq_ok hupdate
  cases heq
  refine ⟨_, ?_, endpointPatched_iff nonce hbody before⟩
  have hid (row : ModelEndpoint) : (ModelEndpoint.writeBack (store.sealRequest gcm nonce request)
      (decryptEndpoint gcm store.cipher before) row).id = row.id := by
    rw [ModelEndpoint.writeBack_eq]
  rw [hkey, Option.bind_some, ModelTables.endpoint_of_update hid hrows, hrow]
  rfl

end Stores

/-- What the stores make of the bodies of updates. Those of the keys are asked before and after;
in the databases, of what their columns can keep. -/
structure UpdatesPatch (sha256 : String → String) (drivers : SqlDrivers)
    (fromStr : String → Option DateTime) {κ : Type} (gcm : Aes256Gcm κ) : Prop where
  memory : ∀ members request, UpdateKeyRequest.deserialize fromStr members = some request →
    ∀ (store : ApiKeyStore) id before, (store.run sha256 (.get id)).2 = .found before →
      ∃ after, ((store.run sha256 (.update id request)).1.run sha256 (.get id)).2 = .found after ∧
        (KeyPatched fromStr members before after ↔ KeyNullsEmpty members before)
  databases : ∀ members request, UpdateKeyRequest.deserialize fromStr members = some request →
    ∀ s, ((KeyStores.runs sha256 drivers).guard fun s op ↦
      s.memory.Common sha256 drivers op).Reachable s →
    ∀ id, s.memory.Common sha256 drivers (.update id request) → ∀ before,
      ((PostgresStore.run sha256 drivers s.postgres (.get id)).2 = .found before →
        ∃ after, (PostgresStore.run sha256 drivers
          (PostgresStore.run sha256 drivers s.postgres (.update id request)).1 (.get id)).2 =
            .found after ∧
          (KeyPatched fromStr members before after ↔ KeyNullsEmpty members before)) ∧
      ((SqliteStore.run sha256 drivers s.sqlite (.get id)).2 = .found before →
        ∃ after, (SqliteStore.run sha256 drivers
          (SqliteStore.run sha256 drivers s.sqlite (.update id request)).1 (.get id)).2 =
            .found after ∧
          (KeyPatched fromStr members before after ↔ KeyNullsEmpty members before))
  models : ∀ members request, UpdateModelRequest.deserialize members = some request →
    ∀ (store : ModelStore) t id before, store.get t id = some before →
      ∀ t' answer, store.update t id request = .ok (t', answer) →
        ∃ after, store.get t' id = some after ∧ (ModelPatched members before after ↔
          (member members "display_name" = some .null → before.displayName = none))
  endpoints : ∀ members request, UpdateModelEndpointRequest.deserialize members = some request →
    ∀ (store : ModelEndpointStore κ) t id before, (store.rowKey id).bind t.endpoint = some before →
      ∀ nonce t' answer, store.update gcm t id nonce request = .ok (t', answer) →
        ∃ after, (store.rowKey id).bind t'.endpoint = some after ∧
          (EndpointPatched members (fun key ↦ decryptApiKey gcm store.cipher (some key))
            before after ↔ EndpointNullsEmpty members before)

/-- **An update does what its body says exactly when nothing it gives as `null` had a value.** -/
theorem updates_patch (sha256 : String → String) (drivers : SqlDrivers)
    (fromStr : String → Option DateTime) {κ : Type} (gcm : Aes256Gcm κ) :
    UpdatesPatch sha256 drivers fromStr gcm where
  memory _ _ hbody store _ _ hbefore := store.patched_iff hbody hbefore
  databases _ _ hbody _ hs _ hcommon _ :=
    (KeyStores.agree_invariant.of_reachable hs).patched_iff hbody hcommon
  models _ _ hbody _ _ _ _ hbefore _ _ hupdate := ModelStore.patched_iff hbody hbefore hupdate
  endpoints _ _ hbody _ _ _ _ hbefore _ _ _ hupdate :=
    ModelEndpointStore.patched_iff hbody hbefore hupdate

/-- A key of an organisation. -/
def orgKey : KeyRecord DateTime :=
  .new "key-1" "sha256:1" unixEpoch
    { name := "ci", scopes := [], expiresAt := none, metadata := none, orgId := some "org-1",
      teamId := none, userId := none, models := none, rateLimitOverride := none,
      tokenBudget := none }

/-- A key keeps the organisation that `null` is to take from it. -/
theorem orgId_not_cleared :
    ¬∀ members request, UpdateKeyRequest.deserialize (fun _ ↦ none) members = some request →
      ∀ (store : ApiKeyStore) key before, (store.run id (.get key)).2 = .found before →
        ∃ after, ((store.run id (.update key request)).1.run id (.get key)).2 = .found after ∧
          KeyPatched (fun _ ↦ none) members before after := by
  intro h
  obtain ⟨after, hafter, hpatched⟩ := h [("org_id", .null)] _ rfl
    ⟨.insert .empty "key-1" orgKey, .empty⟩ "key-1" orgKey.masked.view rfl
  cases hafter
  cases hpatched.orgId.null rfl

end Himadri
