import Himadri.Admin.KeyStore
import Himadri.Transition.System

/-!
# The key store in memory, with any number of operations under way

`ApiKeyStore` keeps the keys by id in one map and the ids by the hash of the secret in another, and
nothing locks the two together. `KeyStoreRun` runs its operations access by access: `create` and
`rotate` end by entering a hash, `delete` by removing one, and between its read and its write of the
whole record `rotate` holds a copy (`Rotation`).

With nothing under way the second map is the inverse of the first, and each key is found by the
secret that was handed out last, as long as no `rotate` writes back a record that has been deleted,
rotated or revoked since it was read, and no hash is removed before it was entered
(`consistent_of_idle`).
-/

namespace Himadri

/-! ### The records -/

/-- `ApiKey`, all of it. -/
structure StoredApiKey extends ApiKey where
  name : String
  createdAt : ℕ
  lastUsedAt : Option ℕ
  usageCount : ℕ
  metadata : Option Json
  models : Option (List String)

/-- `CreateApiKeyRequest`. -/
structure CreateApiKeyRequest where
  name : String
  scopes : List String
  expiresAt : Option ℕ
  metadata : Option Json
  orgId : Option String
  teamId : Option String
  userId : Option String
  models : Option (List String)
  rateLimitOverride : Option RateLimitOverride
  tokenBudget : Option OrgTokenBudget

/-- `UpdateApiKeyRequest`; the outer `none` leaves a field as it is. -/
structure UpdateApiKeyRequest where
  name : Option String
  scopes : Option (List String)
  enabled : Option Bool
  expiresAt : Option (Option ℕ)
  metadata : Option (Option Json)
  orgId : Option (Option String)
  teamId : Option (Option String)
  userId : Option (Option String)
  models : Option (Option (List String))
  rateLimitOverride : Option (Option RateLimitOverride)
  tokenBudget : Option (Option OrgTokenBudget)

namespace StoredApiKey

/-- The record `create` stores. -/
def ofRequest (id hash : String) (now : ℕ) (request : CreateApiKeyRequest) : StoredApiKey where
  id
  name := request.name
  key := hash
  scopes := request.scopes
  enabled := true
  createdAt := now
  lastUsedAt := none
  expiresAt := request.expiresAt
  usageCount := 0
  metadata := request.metadata
  orgId := request.orgId
  teamId := request.teamId
  userId := request.userId
  models := request.models
  rateLimitOverride := request.rateLimitOverride
  tokenBudget := request.tokenBudget

/-- What `update` makes of a record. -/
def amend (key : StoredApiKey) (request : UpdateApiKeyRequest) : StoredApiKey :=
  { key with
    name := request.name.getD key.name
    scopes := request.scopes.getD key.scopes
    enabled := request.enabled.getD key.enabled
    expiresAt := request.expiresAt.getD key.expiresAt
    metadata := request.metadata.getD key.metadata
    orgId := request.orgId.getD key.orgId
    teamId := request.teamId.getD key.teamId
    userId := request.userId.getD key.userId
    models := request.models.getD key.models
    rateLimitOverride := request.rateLimitOverride.getD key.rateLimitOverride
    tokenBudget := request.tokenBudget.getD key.tokenBudget }

/-- What `validate` makes of a record it accepts. -/
def touch (key : StoredApiKey) (now : ℕ) : StoredApiKey :=
  if key.enabled && !key.expiresAt.any (· < now) then
    { key with lastUsedAt := some now, usageCount := key.usageCount + 1 }
  else key

variable (key : StoredApiKey)

@[simp] theorem amend_id (request : UpdateApiKeyRequest) : (key.amend request).id = key.id := rfl

@[simp] theorem amend_key (request : UpdateApiKeyRequest) : (key.amend request).key = key.key := rfl

theorem touch_eq (now : ℕ) : ∃ used count, key.touch now =
    { key with lastUsedAt := used, usageCount := count } := by
  rw [touch]
  split
  · exact ⟨_, _, rfl⟩
  · exact ⟨key.lastUsedAt, key.usageCount, rfl⟩

@[simp] theorem touch_id (now : ℕ) : (key.touch now).id = key.id := by
  obtain ⟨used, count, h⟩ := key.touch_eq now
  rw [h]

@[simp] theorem touch_key (now : ℕ) : (key.touch now).key = key.key := by
  obtain ⟨used, count, h⟩ := key.touch_eq now
  rw [h]

@[simp] theorem touch_enabled (now : ℕ) : (key.touch now).enabled = key.enabled := by
  obtain ⟨used, count, h⟩ := key.touch_eq now
  rw [h]

end StoredApiKey

/-! ### The operations, access by access -/

/-- A `create` or `rotate` that is about to enter the hash of its secret. -/
structure Entering where
  id : String
  secret : String

/-- A `rotate` between the read and the write of its record. -/
structure Rotation where
  id : String
  /-- The record as it was read. -/
  old : StoredApiKey
  secret : String
  /-- The hash of the old secret has been removed. -/
  dropped : Bool

/-- `ApiKeyStore` and the operations under way, a `create` or `rotate` being known by the hash of
the secret it has generated. -/
structure KeyStoreRun where
  keys : KeyMap String StoredApiKey
  keysByKey : KeyMap String String
  entering : KeyMap String Entering
  rotating : KeyMap String Rotation
  /-- The hashes that calls of `delete` are about to remove. -/
  deleting : List String
  /-- The ids that calls of `validate` have found. -/
  validating : List String
  /-- The ids generated so far. -/
  ids : List String
  /-- The hashes of the secrets generated so far, with the id each was generated for. -/
  issued : KeyMap String String
  /-- The secret that `create` or `rotate` returned last, by id. -/
  returned : KeyMap String String
  deleted : List String
  /-- The ids whose last change of `enabled` was a `revoke`. -/
  revoked : List String

/-- One access to the maps. -/
inductive KeyStoreOp
  /-- `create` inserts the record. -/
  | create (id secret : String) (now : ℕ) (request : CreateApiKeyRequest)
  /-- `create` or `rotate` inserts the hash, and returns. -/
  | enter (hash : String)
  | update (id : String) (request : UpdateApiKeyRequest)
  /-- `delete` removes the record. -/
  | delete (id : String)
  /-- The `j`-th call of `delete` removes the hash, and returns. -/
  | forget (j : ℕ)
  /-- `validate` looks the hash up. -/
  | validate (token : String)
  /-- The `j`-th call of `validate` looks at the record, and returns. -/
  | touch (j : ℕ) (now : ℕ)
  | revoke (id : String)
  /-- `rotate` reads the record. -/
  | rotate (id secret : String)
  /-- `rotate` removes the hash of the record it read. -/
  | drop (hash : String)
  /-- `rotate` writes the record it read, with the new hash. -/
  | write (hash : String)

namespace KeyStoreRun

/-- `ApiKeyStore::new`. -/
def new : KeyStoreRun :=
  ⟨.empty, .empty, .empty, .empty, [], [], [], .empty, .empty, [], []⟩

variable (sha256 : String → String)

/-- One access. Ids and secrets are generated fresh. -/
def step? (s : KeyStoreRun) : KeyStoreOp → Option KeyStoreRun
  | .create id secret now request =>
    let hash := hashApiKey sha256 secret
    if s.ids.contains id || s.issued.containsKey hash then none
    else some
      { s with
        keys := s.keys.insert id (.ofRequest id hash now request)
        entering := s.entering.insert hash ⟨id, secret⟩
        ids := id :: s.ids
        issued := s.issued.insert hash id }
  | .enter hash =>
    (s.entering.get hash).map fun e ↦
      { s with
        keysByKey := s.keysByKey.insert hash e.id
        entering := s.entering.remove hash
        returned := s.returned.insert e.id e.secret }
  | .update id request =>
    match s.keys.get id with
    | none => some s
    | some key => some
      { s with
        keys := s.keys.insert id (key.amend request)
        revoked := if request.enabled.isSome then s.revoked.filter (· ≠ id) else s.revoked }
  | .delete id =>
    match s.keys.get id with
    | none => some s
    | some key => some
      { s with
        keys := s.keys.remove id
        deleting := key.key :: s.deleting
        deleted := id :: s.deleted }
  | .forget j =>
    s.deleting[j]?.map fun hash ↦
      { s with keysByKey := s.keysByKey.remove hash, deleting := s.deleting.eraseIdx j }
  | .validate token =>
    match s.keysByKey.get (hashApiKey sha256 token) with
    | none => some s
    | some id => some { s with validating := id :: s.validating }
  | .touch j now =>
    s.validating[j]?.map fun id ↦
      match s.keys.get id with
      | none => { s with validating := s.validating.eraseIdx j }
      | some key =>
        { s with keys := s.keys.insert id (key.touch now), validating := s.validating.eraseIdx j }
  | .revoke id =>
    match s.keys.get id with
    | none => some s
    | some key => some
      { s with keys := s.keys.insert id { key with enabled := false }, revoked := id :: s.revoked }
  | .rotate id secret =>
    match s.keys.get id with
    | none => some s
    | some old =>
      let hash := hashApiKey sha256 secret
      if s.issued.containsKey hash then none
      else some
        { s with
          rotating := s.rotating.insert hash ⟨id, old, secret, false⟩
          issued := s.issued.insert hash id }
  | .drop hash =>
    match s.rotating.get hash with
    | none => none
    | some r =>
      if r.dropped then none
      else some
        { s with
          keysByKey := s.keysByKey.remove r.old.key
          rotating := s.rotating.insert hash { r with dropped := true } }
  | .write hash =>
    match s.rotating.get hash with
    | none => none
    | some r =>
      if r.dropped then some
        { s with
          keys := s.keys.insert r.id { r.old with key := hash }
          rotating := s.rotating.remove hash
          entering := s.entering.insert hash ⟨r.id, r.secret⟩ }
      else none

/-- Any number of operations at once. -/
def runs : TransitionSystem KeyStoreRun KeyStoreOp := .ofPartial (· = new) (step? sha256)

/-- No `rotate` writes back a record that was deleted, rotated or revoked since it was read, and no
`rotate` or `delete` removes a hash before the `create` or `rotate` that made it has entered it. -/
def Undisturbed (s : KeyStoreRun) : KeyStoreOp → Prop
  | .drop hash => ∀ r ∈ s.rotating.get hash, s.entering.get r.old.key = none
  | .forget j => ∀ hash ∈ s.deleting[j]?, s.entering.get hash = none
  | .write hash => ∀ r ∈ s.rotating.get hash,
    (∃ key ∈ s.keys.get r.id, key.key = r.old.key) ∧ (r.id ∈ s.revoked → r.old.enabled = false)
  | _ => True

instance (s : KeyStoreRun) : ∀ op, Decidable (s.Undisturbed op)
  | .drop hash =>
    inferInstanceAs (Decidable (∀ r ∈ s.rotating.get hash, s.entering.get r.old.key = none))
  | .forget j => inferInstanceAs (Decidable (∀ hash ∈ s.deleting[j]?, s.entering.get hash = none))
  | .write hash =>
    inferInstanceAs (Decidable (∀ r ∈ s.rotating.get hash,
      (∃ key ∈ s.keys.get r.id, key.key = r.old.key) ∧ (r.id ∈ s.revoked → r.old.enabled = false)))
  | .create .. | .enter _ | .update .. | .delete _ | .validate _ | .touch .. | .revoke _
  | .rotate .. => inferInstanceAs (Decidable True)

/-- No operation is under way. -/
structure Idle (s : KeyStoreRun) : Prop where
  entering : ∀ hash, s.entering.get hash = none
  rotating : ∀ hash, s.rotating.get hash = none
  deleting : s.deleting = []
  validating : s.validating = []

/-- The store as authentication sees it. -/
def backend (s : KeyStoreRun) : StoreBackend :=
  .memory (s.keys.mapValues StoredApiKey.toApiKey) s.keysByKey

/-- The token is accepted for the key `id`. -/
def Validates (s : KeyStoreRun) (now : ℕ) (token id : String) : Prop :=
  ∃ key, s.backend.validate sha256 token now = .ok (some key) ∧ key.id = id

/-- One live secret for each key, and dead secrets stay dead. -/
structure Consistent (s : KeyStoreRun) (now : ℕ) : Prop where
  inverse : ∀ hash id, s.keysByKey.get hash = some id ↔ ∃ key ∈ s.keys.get id, key.key = hash
  live : ∀ id, ∀ key ∈ s.keys.get id, key.enabled = true → (∀ e ∈ key.expiresAt, now ≤ e) →
    ∃ secret ∈ s.returned.get id, ∀ token, s.Validates sha256 now token id ↔ token = secret
  deleted : ∀ id ∈ s.deleted, s.keys.get id = none
  revoked : ∀ id ∈ s.revoked, ∀ key ∈ s.keys.get id, key.enabled = false

/-! ### The invariant -/

section Invariant

variable (s : KeyStoreRun)

/-- The hash of the record under an id. -/
def hashOf (id : String) : Option String := (s.keys.get id).map (·.key)

/-- A `rotate` that read a record with this hash has removed it. -/
def Dropped (hash : String) : Prop :=
  ∃ hash' r, s.rotating.get hash' = some r ∧ r.dropped = true ∧ r.old.key = hash

/-- The secret of the hash was returned last for the id. -/
def Handed (id hash : String) : Prop :=
  ∃ secret, s.returned.get id = some secret ∧ hash = hashApiKey sha256 secret

/-- What holds of the two maps and the operations under way in an undisturbed run. -/
structure Sound : Prop where
  ids : ∀ id key, s.keys.get id = some key → key.id = id ∧ id ∈ s.ids
  issued : ∀ id hash, s.hashOf id = some hash → s.issued.get hash = some id
  /-- A record's hash is about to be entered, or it was entered and is there unless a `rotate` has
  removed it. -/
  indexed : ∀ id hash, s.hashOf id = some hash → (∃ e, s.entering.get hash = some e) ∨
    s.Handed sha256 id hash ∧ (s.keysByKey.get hash = some id ∨ s.Dropped hash)
  entry : ∀ hash id, s.keysByKey.get hash = some id →
    s.hashOf id = some hash ∨ hash ∈ s.deleting
  entering : ∀ hash e, s.entering.get hash = some e → s.issued.get hash = some e.id ∧
    hash = hashApiKey sha256 e.secret ∧ (s.hashOf e.id = some hash ∨ hash ∈ s.deleting)
  rotating : ∀ hash r, s.rotating.get hash = some r → s.issued.get hash = some r.id ∧
    hash = hashApiKey sha256 r.secret ∧ r.old.id = r.id ∧ s.issued.get r.old.key = some r.id
  /-- The hash a `rotate` has generated is nowhere yet. -/
  unwritten : ∀ hash r, s.rotating.get hash = some r → s.entering.get hash = none ∧
    (∀ id, s.hashOf id ≠ some hash) ∧ ∀ hash' r', s.rotating.get hash' = some r' → r'.old.key ≠ hash
  dropped : ∀ hash r, s.rotating.get hash = some r → r.dropped = true →
    s.keysByKey.get r.old.key = none ∧ s.entering.get r.old.key = none
  deleting : ∀ hash ∈ s.deleting, ∃ id ∈ s.deleted, s.issued.get hash = some id
  deleted : ∀ id ∈ s.deleted, s.hashOf id = none ∧ id ∈ s.ids
  revoked : ∀ id ∈ s.revoked, id ∈ s.ids ∧ ∀ key, s.keys.get id = some key → key.enabled = false

end Invariant

namespace Sound

section Steps

variable {sha256} {s : KeyStoreRun} (h : s.Sound sha256) {id hash : String} {key : StoredApiKey}

include h

/-- A hash that is being removed is no record's. -/
theorem hashOf_ne_of_deleting (hhash : hash ∈ s.deleting) (id : String) :
    s.hashOf id ≠ some hash := by
  intro hid
  obtain ⟨id', hdeleted, hissued⟩ := h.deleting hash hhash
  obtain rfl := Option.some.inj ((h.issued id hash hid).symm.trans hissued)
  rw [(h.deleted id hdeleted).1] at hid
  cases hid

/-- A record changes without its id and its hash. -/
theorem amend (key' : StoredApiKey) (hkey : s.keys.get id = some key) (hid : key'.id = key.id)
    (hhash : key'.key = key.key) {revoked : List String} (validating : List String)
    (hrevoked : ∀ i ∈ revoked, (i = id ∧ key'.enabled = false) ∨ (i ∈ s.revoked ∧ i ≠ id)) :
    ({ s with
      keys := s.keys.insert id key', revoked := revoked, validating := validating } :
      KeyStoreRun).Sound sha256 := by
  have hsame : ∀ i, ({ s with
      keys := s.keys.insert id key', revoked := revoked, validating := validating } :
      KeyStoreRun).hashOf i = s.hashOf i := by
    intro i
    rcases eq_or_ne i id with rfl | hne
    · simp [hashOf, hkey, hhash]
    · simp [hashOf, KeyMap.get_insert_of_ne hne]
  refine
    { ids := fun i k hk ↦ ?_
      issued := fun i hash hi ↦ h.issued i hash ((hsame i).symm.trans hi)
      indexed := fun i hash hi ↦ h.indexed i hash ((hsame i).symm.trans hi)
      entry := fun hash i hi ↦ by rw [hsame]; exact h.entry hash i hi
      entering := fun hash e he ↦ by rw [hsame]; exact h.entering hash e he
      rotating := h.rotating
      unwritten := fun hash r hr ↦ ?_
      dropped := h.dropped
      deleting := h.deleting
      deleted := fun i hi ↦ by rw [hsame]; exact h.deleted i hi
      revoked := fun i hi ↦ ?_ }
  · rw [KeyMap.get_insert] at hk
    split at hk
    · next heq =>
      obtain rfl := Option.some.inj hk
      rw [heq, hid]
      exact h.ids id key hkey
    · exact h.ids i k hk
  · obtain ⟨hentering, hunseen, hold⟩ := h.unwritten hash r hr
    exact ⟨hentering, fun i ↦ by rw [hsame]; exact hunseen i, hold⟩
  · rcases hrevoked i hi with ⟨rfl, henabled⟩ | ⟨hold, hne⟩
    · refine ⟨(h.ids i key hkey).2, fun k hk ↦ ?_⟩
      obtain rfl := Option.some.inj ((KeyMap.get_insert_self ..).symm.trans hk)
      exact henabled
    · refine ⟨(h.revoked i hold).1, fun k hk ↦ ?_⟩
      rw [KeyMap.get_insert_of_ne hne] at hk
      exact (h.revoked i hold).2 k hk

/-- `create` inserts a record under a fresh id, with a fresh hash. -/
theorem create {secret : String} (hid : id ∉ s.ids)
    (hfresh : s.issued.get (hashApiKey sha256 secret) = none) (now : ℕ)
    (request : CreateApiKeyRequest) :
    ({ s with
      keys := s.keys.insert id (.ofRequest id (hashApiKey sha256 secret) now request)
      entering := s.entering.insert (hashApiKey sha256 secret) ⟨id, secret⟩
      ids := id :: s.ids
      issued := s.issued.insert (hashApiKey sha256 secret) id } : KeyStoreRun).Sound sha256 := by
  have hold {hash i : String} (hi : s.issued.get hash = some i) :
      hash ≠ hashApiKey sha256 secret := KeyMap.ne_of_get hi hfresh
  have hnone : s.hashOf id = none := by
    rcases hkey : s.keys.get id with - | key
    · rw [hashOf, hkey, Option.map_none]
    · exact absurd (h.ids id key hkey).2 hid
  have hissued {hash i : String} (hi : s.issued.get hash = some i) :
      (s.issued.insert (hashApiKey sha256 secret) id).get hash = some i :=
    KeyMap.get_insert_of_get hfresh hi
  have hhash (i : String) : ({ s with
      keys := s.keys.insert id (.ofRequest id (hashApiKey sha256 secret) now request)
      entering := s.entering.insert (hashApiKey sha256 secret) ⟨id, secret⟩
      ids := id :: s.ids
      issued := s.issued.insert (hashApiKey sha256 secret) id } : KeyStoreRun).hashOf i =
        if i = id then some (hashApiKey sha256 secret) else s.hashOf i := by
    simp only [hashOf, KeyMap.get_insert]
    split <;> rfl
  have hkept {hash i : String} (hi : s.hashOf i = some hash) : i ≠ id := by
    rintro rfl
    rw [hnone] at hi
    cases hi
  refine
    { ids := fun i k hk ↦ ?_
      issued := fun i hash hi ↦ ?_
      indexed := fun i hash hi ↦ ?_
      entry := fun hash i hi ↦ ?_
      entering := fun hash e he ↦ ?_
      rotating := fun hash r hr ↦ ?_
      unwritten := fun hash r hr ↦ ?_
      dropped := fun hash r hr hdropped ↦ ?_
      deleting := fun hash hmem ↦ ?_
      deleted := fun i hi ↦ ?_
      revoked := fun i hi ↦ ?_ }
  · rw [KeyMap.get_insert] at hk
    split at hk
    · next heq =>
      obtain rfl := Option.some.inj hk
      exact ⟨heq.symm, heq ▸ List.mem_cons_self⟩
    · exact ⟨(h.ids i k hk).1, List.mem_cons_of_mem _ (h.ids i k hk).2⟩
  · rw [hhash] at hi
    split at hi
    · next heq =>
      obtain rfl := Option.some.inj hi
      rw [KeyMap.get_insert_self, heq]
    · exact hissued (h.issued i hash hi)
  · rw [hhash] at hi
    split at hi
    · obtain rfl := Option.some.inj hi
      exact .inl ⟨_, KeyMap.get_insert_self ..⟩
    · rcases h.indexed i hash hi with ⟨e, he⟩ | hthere
      · exact .inl ⟨e, (KeyMap.get_insert_of_ne (hold (h.issued i hash hi))).trans he⟩
      · exact .inr hthere
  · rcases h.entry hash i hi with hthere | hdeleting
    · exact .inl (by rw [hhash, if_neg (hkept hthere), hthere])
    · exact .inr hdeleting
  · rw [KeyMap.get_insert] at he
    split at he
    · next heq =>
      obtain rfl := Option.some.inj he
      exact ⟨heq ▸ KeyMap.get_insert_self .., heq, .inl (by rw [hhash, if_pos rfl, heq])⟩
    · obtain ⟨hi, hsecret, hthere | hdeleting⟩ := h.entering hash e he
      · exact ⟨hissued hi, hsecret, .inl (by rw [hhash, if_neg (hkept hthere), hthere])⟩
      · exact ⟨hissued hi, hsecret, .inr hdeleting⟩
  · obtain ⟨hi, hsecret, hrid, hold'⟩ := h.rotating hash r hr
    exact ⟨hissued hi, hsecret, hrid, hissued hold'⟩
  · obtain ⟨hentering, hunseen, hothers⟩ := h.unwritten hash r hr
    have hne := hold (h.rotating hash r hr).1
    refine ⟨(KeyMap.get_insert_of_ne hne).trans hentering, fun i hi ↦ ?_, hothers⟩
    rw [hhash] at hi
    split at hi
    · exact hne (Option.some.inj hi).symm
    · exact hunseen i hi
  · refine ⟨(h.dropped hash r hr hdropped).1, ?_⟩
    rw [KeyMap.get_insert_of_ne (hold (h.rotating hash r hr).2.2.2)]
    exact (h.dropped hash r hr hdropped).2
  · obtain ⟨i, hi, hissued'⟩ := h.deleting hash hmem
    exact ⟨i, hi, hissued hissued'⟩
  · have hne : i ≠ id := fun heq ↦ hid (heq ▸ (h.deleted i hi).2)
    exact ⟨by rw [hhash, if_neg hne, (h.deleted i hi).1], List.mem_cons_of_mem _ (h.deleted i hi).2⟩
  · have hne : i ≠ id := fun heq ↦ hid (heq ▸ (h.revoked i hi).1)
    refine ⟨List.mem_cons_of_mem _ (h.revoked i hi).1, fun k hk ↦ ?_⟩
    rw [KeyMap.get_insert_of_ne hne] at hk
    exact (h.revoked i hi).2 k hk

/-- `create` or `rotate` enters its hash. -/
theorem enter {e : Entering} (he : s.entering.get hash = some e) :
    ({ s with
      keysByKey := s.keysByKey.insert hash e.id
      entering := s.entering.remove hash
      returned := s.returned.insert e.id e.secret } : KeyStoreRun).Sound sha256 := by
  obtain ⟨hissued, hsecret, hthere⟩ := h.entering hash e he
  refine
    { h with
      indexed := fun i hash' hi ↦ ?_
      entry := fun hash' i hi ↦ ?_
      entering := fun hash' e' he' ↦ ?_
      unwritten := fun hash' r hr ↦ ?_
      dropped := fun hash' r hr hdropped ↦ ?_ }
  · rcases eq_or_ne hash' hash with rfl | hne
    · obtain rfl := Option.some.inj ((h.issued i hash' hi).symm.trans hissued)
      exact .inr ⟨⟨e.secret, KeyMap.get_insert_self .., hsecret⟩, .inl (KeyMap.get_insert_self ..)⟩
    · rcases h.indexed i hash' hi with ⟨e', he'⟩ | ⟨⟨secret, hreturned, hsecret'⟩, hentry⟩
      · exact .inl ⟨e', (KeyMap.get_remove_of_ne hne).trans he'⟩
      · -- another hash of the same id would be its record's
        have hid : i ≠ e.id := by
          rintro rfl
          rcases hthere with hthere | hdeleting
          · exact hne (Option.some.inj (hi.symm.trans hthere))
          · obtain ⟨i', hdeleted, hissued'⟩ := h.deleting hash hdeleting
            obtain rfl := Option.some.inj (hissued'.symm.trans hissued)
            exact Option.some_ne_none _ (hi.symm.trans (h.deleted _ hdeleted).1)
        exact .inr ⟨⟨secret, (KeyMap.get_insert_of_ne hid).trans hreturned, hsecret'⟩,
          hentry.imp_left (KeyMap.get_insert_of_ne hne).trans⟩
  · rw [KeyMap.get_insert] at hi
    split at hi
    · next heq =>
      obtain rfl := Option.some.inj hi
      exact heq ▸ hthere
    · exact h.entry hash' i hi
  · rw [KeyMap.get_remove] at he'
    split at he'
    · cases he'
    · exact h.entering hash' e' he'
  · obtain ⟨hentering, hunseen, hothers⟩ := h.unwritten hash' r hr
    refine ⟨?_, hunseen, hothers⟩
    rw [KeyMap.get_remove, hentering, ite_self]
  · obtain ⟨hentry, hentering⟩ := h.dropped hash' r hr hdropped
    have hne : r.old.key ≠ hash := (KeyMap.ne_of_get he hentering).symm
    exact ⟨(KeyMap.get_insert_of_ne hne).trans hentry,
      (KeyMap.get_remove_of_ne hne).trans hentering⟩

/-- `delete` removes a record. -/
theorem delete (hkey : s.keys.get id = some key) :
    ({ s with
      keys := s.keys.remove id
      deleting := key.key :: s.deleting
      deleted := id :: s.deleted } : KeyStoreRun).Sound sha256 := by
  have hgone : s.hashOf id = some key.key := by rw [hashOf, hkey, Option.map_some]
  have hhash (i : String) : ({ s with
      keys := s.keys.remove id
      deleting := key.key :: s.deleting
      deleted := id :: s.deleted } : KeyStoreRun).hashOf i =
        if i = id then none else s.hashOf i := by
    simp only [hashOf, KeyMap.get_remove]
    split <;> rfl
  have hold {i hash : String} (hi : s.hashOf i = some hash ∨ hash ∈ s.deleting) :
      (if i = id then none else s.hashOf i) = some hash ∨ hash ∈ key.key :: s.deleting := by
    rcases hi with hi | hdeleting
    · rcases eq_or_ne i id with rfl | hne
      · rw [Option.some.inj (hi.symm.trans hgone)]
        exact .inr List.mem_cons_self
      · exact .inl (by rw [if_neg hne, hi])
    · exact .inr (List.mem_cons_of_mem _ hdeleting)
  have hkept {i hash : String} (hi : (if i = id then none else s.hashOf i) = some hash) :
      s.hashOf i = some hash := by
    split at hi
    · cases hi
    · exact hi
  refine
    { h with
      ids := fun i k hk ↦ ?_
      issued := fun i hash hi ↦ h.issued i hash (hkept (hhash i ▸ hi))
      indexed := fun i hash hi ↦ h.indexed i hash (hkept (hhash i ▸ hi))
      entry := fun hash i hi ↦ by rw [hhash]; exact hold (h.entry hash i hi)
      entering := fun hash e he ↦ ?_
      unwritten := fun hash r hr ↦ ?_
      deleting := fun hash hmem ↦ ?_
      deleted := fun i hi ↦ ?_
      revoked := fun i hi ↦ ⟨(h.revoked i hi).1, fun k hk ↦ ?_⟩ }
  · rw [KeyMap.get_remove] at hk
    split at hk
    · cases hk
    · exact h.ids i k hk
  · obtain ⟨hissued, hsecret, hthere⟩ := h.entering hash e he
    rw [hhash]
    exact ⟨hissued, hsecret, hold hthere⟩
  · obtain ⟨hentering, hunseen, hothers⟩ := h.unwritten hash r hr
    exact ⟨hentering, fun i hi ↦ hunseen i (hkept (hhash i ▸ hi)), hothers⟩
  · rcases List.mem_cons.1 hmem with rfl | hmem
    · exact ⟨id, List.mem_cons_self, h.issued id key.key hgone⟩
    · obtain ⟨i, hi, hissued⟩ := h.deleting hash hmem
      exact ⟨i, List.mem_cons_of_mem _ hi, hissued⟩
  · rw [hhash]
    rcases List.mem_cons.1 hi with rfl | hi
    · exact ⟨if_pos rfl, (h.ids i key hkey).2⟩
    · rw [(h.deleted i hi).1, ite_self]
      exact ⟨rfl, (h.deleted i hi).2⟩
  · rw [KeyMap.get_remove] at hk
    split at hk
    · cases hk
    · exact (h.revoked i hi).2 k hk

/-- `delete` removes a hash that has been entered. -/
theorem forget {j : ℕ} (hj : s.deleting[j]? = some hash) (hentered : s.entering.get hash = none) :
    ({ s with keysByKey := s.keysByKey.remove hash, deleting := s.deleting.eraseIdx j } :
      KeyStoreRun).Sound sha256 := by
  have hmem : hash ∈ s.deleting := List.mem_of_getElem? hj
  have hleft {hash' : String} (hne : hash' ≠ hash) (hmem' : hash' ∈ s.deleting) :
      hash' ∈ s.deleting.eraseIdx j := by
    obtain ⟨k, hk⟩ := List.mem_iff_getElem?.1 hmem'
    refine List.mem_eraseIdx_iff_getElem?.2 ⟨k, ?_, hk⟩
    rintro rfl
    exact hne (Option.some.inj (hk.symm.trans hj))
  refine
    { h with
      indexed := fun i hash' hi ↦ ?_
      entry := fun hash' i hi ↦ ?_
      entering := fun hash' e he ↦ ?_
      dropped := fun hash' r hr hdropped ↦ ?_
      deleting := fun hash' hmem' ↦ h.deleting hash' (List.mem_of_mem_eraseIdx hmem') }
  · have hne : hash' ≠ hash := by
      rintro rfl
      exact h.hashOf_ne_of_deleting hmem i hi
    refine (h.indexed i hash' hi).imp_right fun ⟨hhanded, hthere⟩ ↦ ⟨hhanded, ?_⟩
    exact hthere.imp_left (KeyMap.get_remove_of_ne hne).trans
  · rw [KeyMap.get_remove] at hi
    split at hi
    · cases hi
    · next hne => exact (h.entry hash' i hi).imp_right (hleft hne)
  · obtain ⟨hissued, hsecret, hthere⟩ := h.entering hash' e he
    have hne : hash' ≠ hash := KeyMap.ne_of_get he hentered
    exact ⟨hissued, hsecret, hthere.imp_right (hleft hne)⟩
  · obtain ⟨hentry, hentering⟩ := h.dropped hash' r hr hdropped
    refine ⟨?_, hentering⟩
    rw [KeyMap.get_remove, hentry, ite_self]

/-- `rotate` reads a record and generates a fresh secret. -/
theorem rotate {secret : String} (hkey : s.keys.get id = some key)
    (hfresh : s.issued.get (hashApiKey sha256 secret) = none) :
    ({ s with
      rotating := s.rotating.insert (hashApiKey sha256 secret) ⟨id, key, secret, false⟩
      issued := s.issued.insert (hashApiKey sha256 secret) id } : KeyStoreRun).Sound sha256 := by
  have hold {hash i : String} (hi : s.issued.get hash = some i) :
      hash ≠ hashApiKey sha256 secret := KeyMap.ne_of_get hi hfresh
  have hissued {hash i : String} (hi : s.issued.get hash = some i) :
      (s.issued.insert (hashApiKey sha256 secret) id).get hash = some i :=
    KeyMap.get_insert_of_get hfresh hi
  have hread : s.hashOf id = some key.key := by rw [hashOf, hkey, Option.map_some]
  refine
    { h with
      issued := fun i hash hi ↦ hissued (h.issued i hash hi)
      indexed := fun i hash hi ↦ ?_
      entering := fun hash e he ↦ ?_
      rotating := fun hash r hr ↦ ?_
      unwritten := fun hash r hr ↦ ?_
      dropped := fun hash r hr hdropped ↦ ?_
      deleting := fun hash hmem ↦ ?_ }
  · refine (h.indexed i hash hi).imp_right fun ⟨hhanded, hthere⟩ ↦ ⟨hhanded, ?_⟩
    refine hthere.imp_right fun ⟨hash', r, hr, hdropped, hrold⟩ ↦ ⟨hash', r, ?_, hdropped, hrold⟩
    exact (KeyMap.get_insert_of_ne (hold (h.rotating hash' r hr).1)).trans hr
  · obtain ⟨hi, hsecret, hthere⟩ := h.entering hash e he
    exact ⟨hissued hi, hsecret, hthere⟩
  · rw [KeyMap.get_insert] at hr
    split at hr
    · next heq =>
      obtain rfl := Option.some.inj hr
      exact ⟨heq ▸ KeyMap.get_insert_self .., heq, (h.ids id key hkey).1,
        hissued (h.issued id key.key hread)⟩
    · obtain ⟨hi, hsecret, hrid, hrold⟩ := h.rotating hash r hr
      exact ⟨hissued hi, hsecret, hrid, hissued hrold⟩
  · have hothers {hash : String} (hunseen : ∀ i, s.hashOf i ≠ some hash)
        (hrest : ∀ hash' r', s.rotating.get hash' = some r' → r'.old.key ≠ hash) :
        ∀ hash' r', (s.rotating.insert (hashApiKey sha256 secret) ⟨id, key, secret, false⟩).get
          hash' = some r' → r'.old.key ≠ hash := by
      intro hash' r' hr'
      rw [KeyMap.get_insert] at hr'
      split at hr'
      · obtain rfl := Option.some.inj hr'
        exact fun heq ↦ hunseen id (heq ▸ hread)
      · exact hrest hash' r' hr'
    rw [KeyMap.get_insert] at hr
    split at hr
    -- the new hash is fresh
    · next heq =>
      rw [heq]
      have hunseen (i : String) : s.hashOf i ≠ some (hashApiKey sha256 secret) :=
        fun hi ↦ hold (h.issued i _ hi) rfl
      refine ⟨?_, hunseen, hothers hunseen fun hash' r' hr' ↦
        hold (h.rotating hash' r' hr').2.2.2⟩
      rcases he : s.entering.get (hashApiKey sha256 secret) with - | e
      · rfl
      · exact absurd rfl (hold (h.entering _ e he).1)
    · obtain ⟨hentering, hunseen, hrest⟩ := h.unwritten hash r hr
      exact ⟨hentering, hunseen, hothers hunseen hrest⟩
  · rw [KeyMap.get_insert] at hr
    split at hr
    · obtain rfl := Option.some.inj hr
      cases hdropped
    · exact h.dropped hash r hr hdropped
  · obtain ⟨i, hi, hissued'⟩ := h.deleting hash hmem
    exact ⟨i, hi, hissued hissued'⟩

/-- `rotate` removes the hash of the record it read, which has been entered. -/
theorem drop {r : Rotation} (hr : s.rotating.get hash = some r) (hfirst : r.dropped = false)
    (hentered : s.entering.get r.old.key = none) :
    ({ s with
      keysByKey := s.keysByKey.remove r.old.key
      rotating := s.rotating.insert hash { r with dropped := true } } : KeyStoreRun).Sound
        sha256 := by
  have hback {hash' : String} {r' : Rotation}
      (hr' : (s.rotating.insert hash { r with dropped := true }).get hash' = some r') :
      ∃ r'', s.rotating.get hash' = some r'' ∧ r'.id = r''.id ∧ r'.old = r''.old ∧
        r'.secret = r''.secret := by
    rw [KeyMap.get_insert] at hr'
    split at hr'
    · next heq =>
      obtain rfl := Option.some.inj hr'
      exact ⟨r, heq ▸ hr, rfl, rfl, rfl⟩
    · exact ⟨r', hr', rfl, rfl, rfl⟩
  refine
    { h with
      indexed := fun i hash' hi ↦ ?_
      entry := fun hash' i hi ↦ ?_
      rotating := fun hash' r' hr' ↦ ?_
      unwritten := fun hash' r' hr' ↦ ?_
      dropped := fun hash' r' hr' hdropped ↦ ?_ }
  · refine (h.indexed i hash' hi).imp_right fun ⟨hhanded, hthere⟩ ↦ ⟨hhanded, ?_⟩
    rcases hthere with hthere | ⟨hash'', r'', hr'', hdropped, hrold⟩
    · rcases eq_or_ne hash' r.old.key with rfl | hne
      · exact .inr ⟨hash, _, KeyMap.get_insert_self .., rfl, rfl⟩
      · exact .inl ((KeyMap.get_remove_of_ne hne).trans hthere)
    · have hne : hash'' ≠ hash := by
        rintro rfl
        obtain rfl := Option.some.inj (hr.symm.trans hr'')
        rw [hfirst] at hdropped
        cases hdropped
      exact .inr ⟨hash'', r'', (KeyMap.get_insert_of_ne hne).trans hr'', hdropped, hrold⟩
  · rw [KeyMap.get_remove] at hi
    split at hi
    · cases hi
    · exact h.entry hash' i hi
  · obtain ⟨r'', hr'', hid, hold, hsecret⟩ := hback hr'
    rw [hid, hold, hsecret]
    exact h.rotating hash' r'' hr''
  · obtain ⟨r'', hr'', -⟩ := hback hr'
    obtain ⟨hentering, hunseen, hrest⟩ := h.unwritten hash' r'' hr''
    refine ⟨hentering, hunseen, fun hash₁ r₁ hr₁ ↦ ?_⟩
    obtain ⟨r₂, hr₂, -, hold, -⟩ := hback hr₁
    rw [hold]
    exact hrest hash₁ r₂ hr₂
  · rw [KeyMap.get_insert] at hr'
    split at hr'
    · obtain rfl := Option.some.inj hr'
      exact ⟨KeyMap.get_remove_self .., hentered⟩
    · obtain ⟨hentry, hentering⟩ := h.dropped hash' r' hr' hdropped
      refine ⟨?_, hentering⟩
      rw [KeyMap.get_remove, hentry, ite_self]

/-- `rotate` writes back a record that is still there, with the hash it was read with. -/
theorem write {r : Rotation} (hr : s.rotating.get hash = some r) (hdropped : r.dropped = true)
    (hkey : s.keys.get r.id = some key) (hsame : key.key = r.old.key)
    (hrevoked : r.id ∈ s.revoked → r.old.enabled = false) :
    ({ s with
      keys := s.keys.insert r.id { r.old with key := hash }
      rotating := s.rotating.remove hash
      entering := s.entering.insert hash ⟨r.id, r.secret⟩ } : KeyStoreRun).Sound sha256 := by
  obtain ⟨hissued, hsecret, hrid, hrold⟩ := h.rotating hash r hr
  obtain ⟨hentry, hentered⟩ := h.dropped hash r hr hdropped
  obtain ⟨hentering, hunseen, hothers⟩ := h.unwritten hash r hr
  have hread : s.hashOf r.id = some r.old.key := by rw [hashOf, hkey, Option.map_some, hsame]
  have hhash (i : String) : ({ s with
      keys := s.keys.insert r.id { r.old with key := hash }
      rotating := s.rotating.remove hash
      entering := s.entering.insert hash ⟨r.id, r.secret⟩ } : KeyStoreRun).hashOf i =
        if i = r.id then some hash else s.hashOf i := by
    simp only [hashOf, KeyMap.get_insert]
    split <;> rfl
  -- nothing refers to the old hash any more
  have hkept {i hash' : String} (hne : hash' ≠ r.old.key) (hi : s.hashOf i = some hash') :
      i ≠ r.id := by
    rintro rfl
    exact hne (Option.some.inj (hi.symm.trans hread))
  have hback {hash' : String} {r' : Rotation} (hr' : (s.rotating.remove hash).get hash' = some r') :
      hash' ≠ hash ∧ s.rotating.get hash' = some r' := by
    rw [KeyMap.get_remove] at hr'
    split at hr'
    · cases hr'
    · next hne => exact ⟨hne, hr'⟩
  refine
    { h with
      ids := fun i k hk ↦ ?_
      issued := fun i hash' hi ↦ ?_
      indexed := fun i hash' hi ↦ ?_
      entry := fun hash' i hi ↦ ?_
      entering := fun hash' e he ↦ ?_
      rotating := fun hash' r' hr' ↦ h.rotating hash' r' (hback hr').2
      unwritten := fun hash' r' hr' ↦ ?_
      dropped := fun hash' r' hr' hdropped' ↦ ?_
      deleted := fun i hi ↦ ⟨?_, (h.deleted i hi).2⟩
      revoked := fun i hi ↦ ⟨(h.revoked i hi).1, fun k hk ↦ ?_⟩ }
  · rw [KeyMap.get_insert] at hk
    split at hk
    · next heq =>
      obtain rfl := Option.some.inj hk
      exact ⟨hrid.trans heq.symm, heq ▸ (h.ids r.id key hkey).2⟩
    · exact h.ids i k hk
  · rw [hhash] at hi
    split at hi
    · next heq =>
      obtain rfl := Option.some.inj hi
      rw [heq, hissued]
    · exact h.issued i hash' hi
  · rw [hhash] at hi
    split at hi
    · obtain rfl := Option.some.inj hi
      exact .inl ⟨_, KeyMap.get_insert_self ..⟩
    · next hne =>
      rcases h.indexed i hash' hi with ⟨e, he⟩ | ⟨hhanded, hthere⟩
      · exact .inl ⟨e, KeyMap.get_insert_of_get hentering he⟩
      · refine .inr ⟨hhanded, hthere.imp_right fun ⟨hash₁, r₁, hr₁, hdropped₁, hold₁⟩ ↦ ?_⟩
        refine ⟨hash₁, r₁, (KeyMap.get_remove_of_ne ?_).trans hr₁, hdropped₁, hold₁⟩
        rintro rfl
        obtain rfl := Option.some.inj (hr.symm.trans hr₁)
        rw [← hold₁] at hi
        exact hne (Option.some.inj ((h.issued i _ hi).symm.trans hrold))
  · refine (h.entry hash' i hi).imp_left fun hi' ↦ ?_
    have hne : hash' ≠ r.old.key := KeyMap.ne_of_get hi hentry
    rw [hhash, if_neg (hkept hne hi'), hi']
  · rw [KeyMap.get_insert] at he
    split at he
    · next heq =>
      obtain rfl := Option.some.inj he
      exact ⟨heq ▸ hissued, heq ▸ hsecret, .inl (by rw [hhash, if_pos rfl, heq])⟩
    · obtain ⟨hissued', hsecret', hthere⟩ := h.entering hash' e he
      refine ⟨hissued', hsecret', hthere.imp_left fun hi ↦ ?_⟩
      have hne : hash' ≠ r.old.key := KeyMap.ne_of_get he hentered
      rw [hhash, if_neg (hkept hne hi), hi]
  · obtain ⟨hne, hr''⟩ := hback hr'
    obtain ⟨hentering', hunseen', hothers'⟩ := h.unwritten hash' r' hr''
    refine ⟨(KeyMap.get_insert_of_ne hne).trans hentering', fun i hi ↦ ?_,
      fun hash₁ r₁ hr₁ ↦ hothers' hash₁ r₁ (hback hr₁).2⟩
    rw [hhash] at hi
    split at hi
    · exact hne (Option.some.inj hi).symm
    · exact hunseen' i hi
  · obtain ⟨hne, hr''⟩ := hback hr'
    obtain ⟨hentry', hentered'⟩ := h.dropped hash' r' hr'' hdropped'
    exact ⟨hentry', (KeyMap.get_insert_of_ne (hothers hash' r' hr'')).trans hentered'⟩
  · have hne : i ≠ r.id := by
      rintro rfl
      rw [(h.deleted _ hi).1] at hread
      cases hread
    rw [hhash, if_neg hne, (h.deleted i hi).1]
  · rw [KeyMap.get_insert] at hk
    split at hk
    · next heq =>
      obtain rfl := Option.some.inj hk
      exact hrevoked (heq ▸ hi)
    · exact (h.revoked i hi).2 k hk

end Steps

end Sound

theorem sound_new : new.Sound sha256 where
  ids _ _ h := by cases h
  issued _ _ h := by cases h
  indexed _ _ h := by cases h
  entry _ _ h := by cases h
  entering _ _ h := by cases h
  rotating _ _ h := by cases h
  unwritten _ _ h := by cases h
  dropped _ _ h := by cases h
  deleting _ h := by cases h
  deleted _ h := by cases h
  revoked _ h := by cases h

theorem sound_invariant : ((runs sha256).guard Undisturbed).Invariant (Sound sha256) where
  init s hs := by
    obtain rfl : s = new := hs
    exact sound_new sha256
  step s op s' h hstep := by
    obtain ⟨hstep, hok⟩ := hstep
    change s.step? sha256 op = some s' at hstep
    cases op with
    | create id secret now request =>
      simp only [step?] at hstep
      split at hstep
      · cases hstep
      · next hfresh =>
        simp only [Bool.or_eq_true, List.contains_iff_mem, KeyMap.containsKey, not_or,
          Option.not_isSome_iff_eq_none] at hfresh
        obtain rfl := Option.some.inj hstep
        exact h.create hfresh.1 hfresh.2 now request
    | enter hash =>
      obtain ⟨e, he, rfl⟩ := Option.map_eq_some_iff.1 hstep
      exact h.enter he
    | update id request =>
      simp only [step?] at hstep
      split at hstep
      · obtain rfl := Option.some.inj hstep
        exact h
      · next key hkey =>
        obtain rfl := Option.some.inj hstep
        refine h.amend (key.amend request) hkey rfl rfl s.validating fun i hi ↦ ?_
        rcases henabled : request.enabled with - | enabled
        · simp only [henabled, Option.isSome_none, Bool.false_eq_true, if_false] at hi
          rcases eq_or_ne i id with rfl | hne
          · refine .inl ⟨rfl, ?_⟩
            rw [StoredApiKey.amend, henabled]
            exact (h.revoked i hi).2 key hkey
          · exact .inr ⟨hi, hne⟩
        · simp only [henabled, Option.isSome_some, if_true, List.mem_filter,
            decide_eq_true_eq] at hi
          exact .inr hi
    | delete id =>
      simp only [step?] at hstep
      split at hstep
      · obtain rfl := Option.some.inj hstep
        exact h
      · next key hkey =>
        obtain rfl := Option.some.inj hstep
        exact h.delete hkey
    | forget j =>
      obtain ⟨hash, hj, rfl⟩ := Option.map_eq_some_iff.1 hstep
      exact h.forget hj (hok hash hj)
    | validate token =>
      simp only [step?] at hstep
      split at hstep
      · obtain rfl := Option.some.inj hstep
        exact h
      · obtain rfl := Option.some.inj hstep
        exact { h with }
    | touch j now =>
      obtain ⟨id, hj, rfl⟩ := Option.map_eq_some_iff.1 hstep
      split
      · exact { h with }
      · next key hkey =>
        refine h.amend (key.touch now) hkey (by simp) (by simp) (s.validating.eraseIdx j)
          fun i hi ↦ ?_
        rcases eq_or_ne i id with rfl | hne
        · exact .inl ⟨rfl, (key.touch_enabled now).trans ((h.revoked i hi).2 key hkey)⟩
        · exact .inr ⟨hi, hne⟩
    | revoke id =>
      simp only [step?] at hstep
      split at hstep
      · obtain rfl := Option.some.inj hstep
        exact h
      · next key hkey =>
        obtain rfl := Option.some.inj hstep
        refine h.amend { key with enabled := false } hkey rfl rfl s.validating fun i hi ↦ ?_
        rcases eq_or_ne i id with rfl | hne
        · exact .inl ⟨rfl, rfl⟩
        · exact .inr ⟨(List.mem_cons.1 hi).resolve_left hne, hne⟩
    | rotate id secret =>
      simp only [step?] at hstep
      split at hstep
      · obtain rfl := Option.some.inj hstep
        exact h
      · next key hkey =>
        obtain ⟨hfresh, hs'⟩ := Option.ite_none_left_eq_some.1 hstep
        obtain rfl := Option.some.inj hs'
        rw [KeyMap.containsKey, Option.not_isSome_iff_eq_none] at hfresh
        exact h.rotate hkey hfresh
    | drop hash =>
      simp only [step?] at hstep
      split at hstep
      · cases hstep
      · next r hr =>
        obtain ⟨hfirst, hs'⟩ := Option.ite_none_left_eq_some.1 hstep
        obtain rfl := Option.some.inj hs'
        exact h.drop hr (Bool.eq_false_iff.2 hfirst) (hok r hr)
    | write hash =>
      simp only [step?] at hstep
      split at hstep
      · cases hstep
      · next r hr =>
        obtain ⟨hdropped, hs'⟩ := Option.ite_none_right_eq_some.1 hstep
        obtain rfl := Option.some.inj hs'
        obtain ⟨⟨key, hkey, hsame⟩, hrevoked⟩ := hok r hr
        exact h.write hr hdropped hkey hsame hrevoked

/-! ### With nothing under way -/

variable {sha256} {s : KeyStoreRun}

theorem Sound.inverse (h : s.Sound sha256) (hidle : s.Idle) {hash id : String} :
    s.keysByKey.get hash = some id ↔ s.hashOf id = some hash := by
  constructor
  · intro hentry
    refine (h.entry hash id hentry).resolve_right fun hdeleting ↦ ?_
    rw [hidle.deleting] at hdeleting
    cases hdeleting
  · intro hid
    rcases h.indexed id hash hid with ⟨e, he⟩ | ⟨-, hentry | ⟨hash', r, hr, -⟩⟩
    · rw [hidle.entering] at he
      cases he
    · exact hentry
    · rw [hidle.rotating] at hr
      cases hr

theorem Sound.handed (h : s.Sound sha256) (hidle : s.Idle) {hash id : String}
    (hid : s.hashOf id = some hash) : s.Handed sha256 id hash := by
  rcases h.indexed id hash hid with ⟨e, he⟩ | ⟨hhanded, -⟩
  · rw [hidle.entering] at he
    cases he
  · exact hhanded

theorem hashOf_eq_some {hash id : String} :
    s.hashOf id = some hash ↔ ∃ key ∈ s.keys.get id, key.key = hash :=
  Option.map_eq_some_iff

/-- The token validates for the id it leads to, if its key is enabled and has not expired. -/
theorem Sound.validates_iff (h : s.Sound sha256) (hidle : s.Idle) {id : String}
    {key : StoredApiKey} (hkey : s.keys.get id = some key) (henabled : key.enabled = true)
    {now : ℕ} (hexpires : ∀ e ∈ key.expiresAt, now ≤ e) {token : String} :
    s.Validates sha256 now token id ↔ key.key = hashApiKey sha256 token := by
  constructor
  · rintro ⟨masked, hvalidate, hid⟩
    obtain ⟨found, ⟨id', hentry, hfound⟩, rfl, -, -⟩ := StoreBackend.holds_of_validate hvalidate
    obtain ⟨stored, hstored, rfl⟩ := Option.map_eq_some_iff.1 hfound
    obtain rfl : id' = id := (h.ids id' stored hstored).1.symm.trans hid
    obtain ⟨key', hkey', hhash⟩ := hashOf_eq_some.1 ((h.inverse hidle).1 hentry)
    obtain rfl := Option.some.inj (hkey.symm.trans hkey')
    exact hhash
  · intro hhash
    have hentry : s.keysByKey.get (hashApiKey sha256 token) = some id :=
      (h.inverse hidle).2 (hashOf_eq_some.2 ⟨key, hkey, hhash⟩)
    have hnot : key.expiresAt.any (· < now) = false := by
      rcases hexp : key.expiresAt with - | e
      · rfl
      · simpa using hexpires e hexp
    refine ⟨maskStored key.toApiKey, ?_, (h.ids id key hkey).1⟩
    simp [backend, StoreBackend.validate, hentry, hkey, henabled, hnot]

/-- **In a run without those races, the store is consistent whenever nothing is under way.** -/
theorem consistent_of_idle (hsha : Function.Injective sha256)
    (hs : ((runs sha256).guard Undisturbed).Reachable s) (hidle : s.Idle) (now : ℕ) :
    s.Consistent sha256 now := by
  have h := (sound_invariant sha256).of_reachable hs
  refine
    { inverse := fun hash id ↦ (h.inverse hidle).trans hashOf_eq_some
      live := fun id key hkey henabled hexpires ↦ ?_
      deleted := fun id hid ↦ Option.map_eq_none_iff.1 (h.deleted id hid).1
      revoked := fun id hid ↦ (h.revoked id hid).2 }
  obtain ⟨secret, hreturned, hhash⟩ := h.handed hidle (hashOf_eq_some.2 ⟨key, hkey, rfl⟩)
  refine ⟨secret, hreturned, fun token ↦ ?_⟩
  rw [h.validates_iff hidle hkey henabled hexpires, hhash]
  constructor
  · intro heq
    exact (hsha ((String.append_right_inj _).1 heq)).symm
  · rintro rfl
    rfl

/-- A request for a key. -/
def plainRequest : CreateApiKeyRequest where
  name := "ci"
  scopes := []
  expiresAt := none
  metadata := none
  orgId := none
  teamId := none
  userId := none
  models := none
  rateLimitOverride := none
  tokenBudget := none

/-- A key is created, and then rotated. -/
def rotation : List KeyStoreOp :=
  [.create "key-1" "sk-1" 0 plainRequest, .enter "sha256:sk-1", .rotate "key-1" "sk-2",
    .drop "sha256:sk-2", .write "sha256:sk-2", .enter "sha256:sk-2"]

theorem rotated_consistent : ∃ s, rotation.foldlM (step? id) new = some s ∧ s.Consistent id 0 := by
  refine ⟨_, rfl, consistent_of_idle Function.injective_id
    (TransitionSystem.reachable_guard_of_foldlM rfl rotation rfl) ⟨?_, ?_, rfl, rfl⟩ 0⟩
  · exact KeyMap.get_remove_insert fun k _ ↦ KeyMap.get_remove_insert (fun _ _ ↦ rfl) k
  · exact KeyMap.get_remove_insert fun _ hne ↦ KeyMap.get_insert_of_ne hne

/-- A key is revoked while it is being rotated. -/
def revokedWhileRotated : List KeyStoreOp :=
  [.create "key-1" "sk-1" 0 plainRequest, .enter "sha256:sk-1", .rotate "key-1" "sk-2",
    .revoke "key-1", .drop "sha256:sk-2", .write "sha256:sk-2", .enter "sha256:sk-2"]

theorem revocation_lost :
    ¬∀ s, (runs id).Reachable s → s.Idle → s.Consistent id 0 := by
  intro h
  have hconsistent := h _ (TransitionSystem.reachable_of_foldlM rfl revokedWhileRotated rfl)
    ⟨KeyMap.get_remove_insert fun k _ ↦ KeyMap.get_remove_insert (fun _ _ ↦ rfl) k,
      KeyMap.get_remove_insert fun _ hne ↦ KeyMap.get_insert_of_ne hne, rfl, rfl⟩
  cases hconsistent.revoked "key-1" (by decide) _ rfl

end KeyStoreRun

end Himadri
