import Himadri.Admin.KeyStoreRuns
import Himadri.Admin.Tables
import Himadri.Transition.Columns

/-!
# Partial updates of the tables

`update` of the SQL stores of API keys, models and model endpoints: it reads the row, merges the
request into what it read, and writes the merged columns back. `revoke` and `toggle` are one
statement, which sets `enabled` alone. Each table is a `ColumnTable`. The time of the last change,
which every statement of a model or an endpoint sets, is left out, and the key of an endpoint is
taken decrypted.

An update that leaves `enabled` unset undoes a `revoke` that falls between its two statements
(`revoke_undone`). Where no column that an update copies has changed since it was read, a disabled
row stays disabled and every update takes effect (`updates_kept`).
-/

namespace Himadri

/-- The row that an id denotes; `Uuid::parse_str` is an argument. -/
def SqlDialect.rowKey (parseUuid : String → Option String) : SqlDialect → String → Option String
  | .postgres, id => parseUuid id
  | .sqlite, id => some id

/-! ### API keys -/

/-- The columns of `api_keys`. -/
inductive ApiKeyColumn
  | id
  | name
  | key
  | scopes
  | enabled
  | createdAt
  | lastUsedAt
  | expiresAt
  | usageCount
  | metadata
  | orgId
  | teamId
  | userId
  | models
  | rateLimitOverride
  | tokenBudget

namespace ApiKeyColumn

/-- What the column holds. -/
def Value : ApiKeyColumn → Type
  | id => String
  | name => String
  | key => String
  | scopes => List String
  | enabled => Bool
  | createdAt => ℕ
  | lastUsedAt => Option ℕ
  | expiresAt => Option ℕ
  | usageCount => ℕ
  | metadata => Option Json
  | orgId => Option String
  | teamId => Option String
  | userId => Option String
  | models => Option (List String)
  | rateLimitOverride => Option RateLimitOverride
  | tokenBudget => Option OrgTokenBudget

/-- The columns of the `UPDATE`. -/
def copied : ApiKeyColumn → Bool
  | id | key | createdAt | lastUsedAt | usageCount => false
  | name | scopes | enabled | expiresAt | metadata | orgId | teamId | userId | models
  | rateLimitOverride | tokenBudget => true

end ApiKeyColumn

namespace StoredApiKey

/-- A column of the row. -/
def column (row : StoredApiKey) : ∀ c : ApiKeyColumn, c.Value
  | .id => row.id
  | .name => row.name
  | .key => row.key
  | .scopes => row.scopes
  | .enabled => row.enabled
  | .createdAt => row.createdAt
  | .lastUsedAt => row.lastUsedAt
  | .expiresAt => row.expiresAt
  | .usageCount => row.usageCount
  | .metadata => row.metadata
  | .orgId => row.orgId
  | .teamId => row.teamId
  | .userId => row.userId
  | .models => row.models
  | .rateLimitOverride => row.rateLimitOverride
  | .tokenBudget => row.tokenBudget

/-- The row after the `UPDATE` of `update`, which had read `current`. -/
def writeBack (request : UpdateApiKeyRequest) (current row : StoredApiKey) : StoredApiKey :=
  { row with
    name := request.name.getD current.name
    scopes := request.scopes.getD current.scopes
    enabled := request.enabled.getD current.enabled
    expiresAt := request.expiresAt.getD current.expiresAt
    metadata := request.metadata.getD current.metadata
    orgId := request.orgId.getD current.orgId
    teamId := request.teamId.getD current.teamId
    userId := request.userId.getD current.userId
    models := request.models.getD current.models
    rateLimitOverride := request.rateLimitOverride.getD current.rateLimitOverride
    tokenBudget := request.tokenBudget.getD current.tokenBudget }

end StoredApiKey

namespace UpdateApiKeyRequest

/-- What the request names. -/
def named (request : UpdateApiKeyRequest) : ∀ c : ApiKeyColumn, Option c.Value
  | .name => request.name
  | .scopes => request.scopes
  | .enabled => request.enabled
  | .expiresAt => request.expiresAt
  | .metadata => request.metadata
  | .orgId => request.orgId
  | .teamId => request.teamId
  | .userId => request.userId
  | .models => request.models
  | .rateLimitOverride => request.rateLimitOverride
  | .tokenBudget => request.tokenBudget
  | .id | .key | .createdAt | .lastUsedAt | .usageCount => none

/-- The request that names nothing. -/
def unset : UpdateApiKeyRequest where
  name := none
  scopes := none
  enabled := none
  expiresAt := none
  metadata := none
  orgId := none
  teamId := none
  userId := none
  models := none
  rateLimitOverride := none
  tokenBudget := none

/-- `revoke`, as a request. -/
def revoke : UpdateApiKeyRequest := { unset with enabled := some false }

end UpdateApiKeyRequest

theorem StoredApiKey.amend_revoke (row : StoredApiKey) :
    row.amend .revoke = { row with enabled := false } := rfl

/-- The table `api_keys`. In memory, `update` amends the row in one access; so does `revoke`. -/
def apiKeyTable :
    ColumnTable ApiKeyColumn ApiKeyColumn.Value StoredApiKey UpdateApiKeyRequest where
  column := StoredApiKey.column
  named := UpdateApiKeyRequest.named
  copied := ApiKeyColumn.copied
  set request row := row.amend request
  update := StoredApiKey.writeBack
  column_set request row c := by cases c <;> rfl
  column_update request current row c := by cases c <;> rfl

/-! ### Models -/

/-- `Model`, with its display name. -/
structure StoredModel extends Model where
  displayName : Option String

/-- `UpdateModelRequest`. -/
structure UpdateModelRequest where
  name : Option String
  displayName : Option (Option String)
  enabled : Option Bool

/-- The columns of `models`. -/
inductive ModelColumn
  | id
  | name
  | displayName
  | enabled

namespace ModelColumn

/-- What the column holds. -/
def Value : ModelColumn → Type
  | id => String
  | name => String
  | displayName => Option String
  | enabled => Bool

/-- The columns of the `UPDATE`. -/
def copied : ModelColumn → Bool
  | id => false
  | name | displayName | enabled => true

end ModelColumn

namespace StoredModel

/-- A column of the row. -/
def column (row : StoredModel) : ∀ c : ModelColumn, c.Value
  | .id => row.id
  | .name => row.name
  | .displayName => row.displayName
  | .enabled => row.enabled

/-- The row after the `UPDATE` of `update`, which had read `current`. -/
def writeBack (request : UpdateModelRequest) (current row : StoredModel) : StoredModel :=
  { row with
    name := request.name.getD current.name
    displayName := request.displayName.getD current.displayName
    enabled := request.enabled.getD current.enabled }

end StoredModel

namespace UpdateModelRequest

/-- What the request names. -/
def named (request : UpdateModelRequest) : ∀ c : ModelColumn, Option c.Value
  | .id => none
  | .name => request.name
  | .displayName => request.displayName
  | .enabled => request.enabled

/-- `toggle`, as a request. -/
def toggle (enabled : Bool) : UpdateModelRequest where
  name := none
  displayName := none
  enabled := some enabled

end UpdateModelRequest

/-- The table `models`. -/
def modelTable : ColumnTable ModelColumn ModelColumn.Value StoredModel UpdateModelRequest where
  column := StoredModel.column
  named := UpdateModelRequest.named
  copied := ModelColumn.copied
  set request row := row.writeBack request row
  update := StoredModel.writeBack
  column_set request row c := by cases c <;> rfl
  column_update request current row c := by cases c <;> rfl

theorem modelTable_set_toggle (row : StoredModel) (enabled : Bool) :
    modelTable.set (.toggle enabled) row = { row with enabled } := rfl

/-! ### Model endpoints -/

/-- `UpdateModelEndpointRequest`. -/
structure UpdateModelEndpointRequest where
  providerType : Option String
  baseUrl : Option (Option String)
  apiKey : Option (Option String)
  weight : Option ℚ
  enabled : Option Bool

/-- The columns of `model_endpoints`. -/
inductive EndpointColumn
  | id
  | modelId
  | providerType
  | baseUrl
  | apiKey
  | weight
  | enabled

namespace EndpointColumn

/-- What the column holds. -/
def Value : EndpointColumn → Type
  | id => String
  | modelId => String
  | providerType => String
  | baseUrl => Option String
  | apiKey => Option String
  | weight => ℚ
  | enabled => Bool

/-- The columns of both `UPDATE`s. -/
def copied : EndpointColumn → Bool
  | id | modelId | apiKey => false
  | providerType | baseUrl | weight | enabled => true

end EndpointColumn

namespace UpdateModelEndpointRequest

/-- `UpdateModelEndpointRequest::effective_routing_pair`. -/
def effectiveRoutingPair (request : UpdateModelEndpointRequest) (current : ModelEndpoint) :
    String × Option String :=
  (request.providerType.getD current.providerType, request.baseUrl.getD current.baseUrl)

/-- What the request names. -/
def named (request : UpdateModelEndpointRequest) : ∀ c : EndpointColumn, Option c.Value
  | .id | .modelId => none
  | .providerType => request.providerType
  | .baseUrl => request.baseUrl
  | .apiKey => request.apiKey
  | .weight => request.weight
  | .enabled => request.enabled

/-- `toggle`, as a request. -/
def toggle (enabled : Bool) : UpdateModelEndpointRequest where
  providerType := none
  baseUrl := none
  apiKey := none
  weight := none
  enabled := some enabled

end UpdateModelEndpointRequest

namespace ModelEndpoint

/-- A column of the row. -/
def column (row : ModelEndpoint) : ∀ c : EndpointColumn, c.Value
  | .id => row.id
  | .modelId => row.modelId
  | .providerType => row.providerType
  | .baseUrl => row.baseUrl
  | .apiKey => row.apiKey
  | .weight => row.weight
  | .enabled => row.enabled

/-- The row after the `UPDATE` of `update`, which had read `current`. -/
def writeBack (request : UpdateModelEndpointRequest) (current row : ModelEndpoint) :
    ModelEndpoint :=
  let (providerType, baseUrl) := request.effectiveRoutingPair current
  let weight := request.weight.getD current.weight
  let enabled := request.enabled.getD current.enabled
  match request.apiKey with
  | some apiKey => { row with providerType, baseUrl, apiKey, weight, enabled }
  | none => { row with providerType, baseUrl, weight, enabled }

theorem column_writeBack (request : UpdateModelEndpointRequest) (current row : ModelEndpoint)
    (c : EndpointColumn) : (writeBack request current row).column c =
      (request.named c).getD ((if c.copied then current else row).column c) := by
  obtain ⟨providerType, baseUrl, apiKey, weight, enabled⟩ := request
  cases apiKey <;> cases c <;> rfl

end ModelEndpoint

/-- The table `model_endpoints`. -/
def endpointTable : ColumnTable EndpointColumn EndpointColumn.Value ModelEndpoint
    UpdateModelEndpointRequest where
  column := ModelEndpoint.column
  named := UpdateModelEndpointRequest.named
  copied := EndpointColumn.copied
  set request row := row.writeBack request row
  update := ModelEndpoint.writeBack
  column_set request row c := by rw [ModelEndpoint.column_writeBack, ite_self]
  column_update := ModelEndpoint.column_writeBack

theorem endpointTable_set_toggle (row : ModelEndpoint) (enabled : Bool) :
    endpointTable.set (.toggle enabled) row = { row with enabled } := rfl

/-! ### What partial updates promise -/

section UpdatesKept

variable {I K κ R Q : Type*} {V : κ → Type*} [DecidableEq K]

/-- Updates change the columns their requests name and no others, and undo no disable. -/
structure UpdatesKept (T : ColumnTable κ V R Q) (enabled : κ) (disabled : V enabled)
    (s : TableRun K R Q) : Prop where
  columns : s.Keeps T
  /-- A row that was disabled is disabled, unless some statement enables it. -/
  stays : ∀ key row, s.rows.get key = some row →
    (∃ q, (key, q) ∈ s.log ∧ T.named q enabled = some disabled) →
    (∀ q, (key, q) ∈ s.log → ∀ v ∈ T.named q enabled, v = disabled) →
    T.column row enabled = disabled
  /-- What one request names, and no other, is as it says. -/
  takesEffect : ∀ key row, s.rows.get key = some row → ∀ q, (key, q) ∈ s.log →
    ∀ c v, T.named q c = some v →
    (∀ q', (key, q') ∈ s.log → q' ≠ q → T.named q' c = none) → T.column row c = v

/-- A run keeps that promise as long as each update writes back only what is still as it was read,
and the first one that does not breaks it. -/
structure KeptWhileFresh (T : ColumnTable κ V R Q) (enabled : κ) (disabled : V enabled)
    (locate : I → Option K) : Prop where
  kept : ∀ s, ((TableRun.runs T locate).guard (TableRun.Fresh T)).Reachable s →
    UpdatesKept T enabled disabled s
  exact : ∀ s op s', ((TableRun.runs T locate).guard (TableRun.Fresh T)).Reachable s →
    s.step? T locate op = some s' → (UpdatesKept T enabled disabled s' ↔ s.Fresh T op)

variable {T : ColumnTable κ V R Q} {enabled : κ} {disabled : V enabled} {locate : I → Option K}
  {s : TableRun K R Q}

theorem updatesKept_iff : UpdatesKept T enabled disabled s ↔ s.Keeps T := by
  constructor
  · exact UpdatesKept.columns
  · intro h
    refine ⟨h, fun key row hrow hoff honly ↦ h.column_eq hrow hoff honly, ?_⟩
    intro key row hrow q hmem c v hv hothers
    refine h.column_eq hrow ⟨q, hmem, hv⟩ fun q' hmem' w hw ↦ ?_
    by_cases heq : q' = q
    · rw [heq, hv] at hw
      exact (Option.some.inj hw).symm
    · rw [hothers q' hmem' heq] at hw
      cases hw

theorem keptWhileFresh : KeptWhileFresh T enabled disabled locate where
  kept _ hs := updatesKept_iff.2 (TableRun.keeps_invariant.of_reachable hs)
  exact _ _ _ hs hstep :=
    updatesKept_iff.trans ((TableRun.keeps_invariant.of_reachable hs).step_iff hstep)

end UpdatesKept

/-- **In all three tables, with either database.** -/
theorem updates_kept (dialect : SqlDialect) (parseUuid : String → Option String) :
    KeptWhileFresh apiKeyTable .enabled false (dialect.rowKey parseUuid) ∧
      KeptWhileFresh modelTable .enabled false (dialect.rowKey parseUuid) ∧
      KeptWhileFresh endpointTable .enabled false (dialect.rowKey parseUuid) :=
  ⟨keptWhileFresh, keptWhileFresh, keptWhileFresh⟩

/-- A table with one key. -/
def oneKey : KeyMap String StoredApiKey :=
  KeyMap.empty.insert "key-1" (.ofRequest "key-1" "sha256:sk-1" 0 KeyStoreRun.plainRequest)

/-- A key is renamed and, between the two statements, revoked. -/
def revokedWhileRenamed : List (TableOp String UpdateApiKeyRequest) :=
  [.read "key-1" { UpdateApiKeyRequest.unset with name := some "ci-2" }, .set "key-1" .revoke,
    .write 0]

theorem revoke_undone :
    ¬∀ s, (TableRun.runs apiKeyTable (SqlDialect.sqlite.rowKey some)).Reachable s →
      s.pending = [] → UpdatesKept apiKeyTable .enabled false s := by
  intro h
  have hkept := h _ (TransitionSystem.reachable_of_foldlM ⟨oneKey, rfl⟩ revokedWhileRenamed rfl) rfl
  have hstays := hkept.stays "key-1" _ rfl ⟨.revoke, .tail _ (.head _), rfl⟩ fun q hq v hv ↦ by
    rcases List.mem_cons.1 hq with hrename | hq
    · obtain rfl := (Prod.mk.inj hrename).2
      cases hv
    · obtain rfl := (Prod.mk.inj (List.mem_singleton.1 hq)).2
      cases hv
      rfl
  cases hstays

end Himadri
