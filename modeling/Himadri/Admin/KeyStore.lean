import Himadri.Core.Config
import Himadri.Core.Request
import Himadri.Core.Text

/-!
# API keys and the master key

The key stores of `himadri-admin` as `validate` reads them, and `AuthMiddleware`. SHA-256 in
hexadecimal is an argument.
-/

namespace Himadri

/-! ### Comparing secrets -/

/-- `constant_time_eq`: the differences of the bytes, gathered. -/
def constantTimeEq (a b : List UInt8) : Bool :=
  a.length == b.length && (List.zipWith (· ^^^ ·) a b).foldl (· ||| ·) 0 == 0

theorem foldl_or_eq_zero {l : List UInt8} {acc : UInt8} :
    l.foldl (· ||| ·) acc = 0 ↔ acc = 0 ∧ ∀ x ∈ l, x = 0 := by
  induction l generalizing acc with
  | nil => simp
  | cons x l ih =>
    rw [List.foldl_cons, ih, UInt8.or_eq_zero_iff, List.forall_mem_cons, and_assoc]

theorem constantTimeEq_iff {a b : List UInt8} : constantTimeEq a b ↔ a = b := by
  rw [constantTimeEq, Bool.and_eq_true, beq_iff_eq, beq_iff_eq, foldl_or_eq_zero]
  induction a generalizing b with
  | nil => cases b <;> simp
  | cons x a ih =>
    cases b with
    | nil => simp
    | cons y b =>
      have hrest := ih (b := b)
      simp only [List.length_cons, Nat.add_right_cancel_iff, List.zipWith_cons_cons,
        List.forall_mem_cons, UInt8.xor_eq_zero_iff, List.cons.injEq] at hrest ⊢
      tauto

/-- Strings are compared by their bytes. -/
theorem constantTimeEq_toUTF8_iff {a b : String} :
    constantTimeEq a.toUTF8.data.toList b.toUTF8.data.toList ↔ a = b := by
  rw [constantTimeEq_iff, Array.toList_inj]
  refine ⟨fun h ↦ String.toByteArray_inj.1 (ByteArray.ext h), ?_⟩
  rintro rfl
  rfl

/-! ### The stores -/

/-- `ApiKey`, what an authentication reads of it. -/
structure ApiKey where
  id : String
  /-- The hash that is stored, a legacy plaintext, or the masked form that leaves the store. -/
  key : String
  scopes : List String
  enabled : Bool
  expiresAt : Option ℕ
  orgId : Option String
  teamId : Option String
  userId : Option String
  rateLimitOverride : Option RateLimitOverride
  tokenBudget : Option OrgTokenBudget

/-- `hash_api_key`. -/
def hashApiKey (sha256 : String → String) (key : String) : String := "sha256:" ++ sha256 key

/-- `masked_key_display`. -/
def maskedKeyDisplay (stored : String) : String :=
  "sk-****" ++ .ofList (stored.toList.drop (stored.toList.length - 6))

/-- `mask_stored`, and the conversion of a row. -/
def maskStored (key : ApiKey) : ApiKey := { key with key := maskedKeyDisplay key.key }

/-- The two databases, which differ in what `LIKE` tells apart. -/
inductive SqlDialect
  | postgres
  | sqlite
  deriving DecidableEq

/-- `key LIKE 'sha256:%'`. -/
def SqlDialect.isHashed (dialect : SqlDialect) (key : String) : Bool :=
  match dialect with
  | .postgres => Text.startsWith key "sha256:"
  -- of ASCII letters, SQLite does not compare the case
  | .sqlite => Text.startsWith (Text.toAsciiLowercase key) "sha256:"

/-- `StoreBackend`, with what it holds; the rows are `none` where the database fails. -/
inductive StoreBackend
  | memory (keys : KeyMap String ApiKey) (keysByKey : KeyMap String String)
  | sql (dialect : SqlDialect) (rows : Option (List ApiKey))

section Validate

variable (sha256 : String → String) (token : String) (now : ℕ)

/-- The condition of the `UPDATE` of the SQL stores. -/
def rowMatches (dialect : SqlDialect) (row : ApiKey) : Bool :=
  (row.key == hashApiKey sha256 token || (row.key == token && !dialect.isHashed row.key)) &&
    row.enabled && row.expiresAt.all (now < ·)

namespace StoreBackend

/-- `StoreBackend::validate`. -/
def validate : StoreBackend → Except Unit (Option ApiKey)
  | .memory keys keysByKey =>
    match (keysByKey.get (hashApiKey sha256 token)).bind keys.get with
    | none => .ok none
    | some entry =>
      if !entry.enabled then .ok none
      else if entry.expiresAt.any (· < now) then .ok none
      else .ok (some (maskStored entry))
  | .sql dialect rows =>
    match rows with
    | none => .error ()
    | some rows => .ok ((rows.find? (rowMatches sha256 token now dialect)).map maskStored)

/-- The store has the key under the token; a hash that leaked is no token. -/
def Holds : StoreBackend → ApiKey → Prop
  | .memory keys keysByKey, key =>
    ∃ id, keysByKey.get (hashApiKey sha256 token) = some id ∧ keys.get id = some key
  | .sql dialect rows, key =>
    ∃ rows' ∈ rows, key ∈ rows' ∧
      (key.key = hashApiKey sha256 token ∨ key.key = token ∧ dialect.isHashed key.key = false)

variable {sha256 token now} {store : StoreBackend}

/-- What is validated is in the store under the token, enabled, and not expired. -/
theorem holds_of_validate {masked : ApiKey}
    (h : store.validate sha256 token now = .ok (some masked)) :
    ∃ key, store.Holds sha256 token key ∧ masked = maskStored key ∧ key.enabled ∧
      ∀ e ∈ key.expiresAt, now ≤ e := by
  cases store with
  -- in memory the key is found by its hash and then checked; the SQL stores scan for a row
  | memory keys keysByKey =>
    rw [validate] at h
    split at h
    · cases h
    · next entry hentry =>
      split at h
      · cases h
      · next henabled =>
        split at h
        · cases h
        · next hexpires =>
          obtain ⟨id, hid, hkey⟩ := Option.bind_eq_some_iff.1 hentry
          refine ⟨entry, ⟨id, hid, hkey⟩, (Option.some.inj (Except.ok.inj h)).symm, ?_, ?_⟩
          · simpa using henabled
          · simpa [Option.any_eq_true] using hexpires
  | sql dialect rows =>
    cases rows with
    | none => cases h
    | some rows =>
      obtain ⟨key, hfind, rfl⟩ := Option.map_eq_some_iff.1 (Except.ok.inj h)
      have hmatches := List.find?_some hfind
      simp only [rowMatches, Bool.and_eq_true, Bool.or_eq_true, beq_iff_eq, Bool.not_eq_true',
        Option.all_eq_true, decide_eq_true_eq] at hmatches
      obtain ⟨⟨hkey, henabled⟩, hexpires⟩ := hmatches
      exact ⟨key, ⟨rows, rfl, List.mem_of_find?_eq_some hfind, hkey⟩, rfl, henabled,
        fun e he ↦ Nat.le_of_lt (hexpires e he)⟩

end StoreBackend

end Validate

/-! ### The middleware -/

/-- `AuthMiddleware`. -/
structure AuthMiddleware where
  store : StoreBackend
  masterKey : Option String

/-- The principal of the master key. -/
def AuthContext.master : AuthContext :=
  { default with apiKey := "master", scope := .admin, roles := ["admin"] }

/-- The principal of an API key. -/
def ApiKey.context (key : ApiKey) : AuthContext where
  apiKey := "key:" ++ key.id
  keyId := some key.id
  scope :=
    if key.scopes.contains "admin" then .admin
    else if key.scopes.contains "read-only" then .readOnly
    else .apiKey
  orgId := key.orgId
  teamId := key.teamId
  userId := key.userId
  rateLimitOverride := key.rateLimitOverride
  roles := key.scopes
  budgetLimitUsd := key.tokenBudget.bind (·.costLimitPerMonth)

theorem ApiKey.scope_eq_admin_iff {key : ApiKey} :
    key.context.scope = .admin ↔ "admin" ∈ key.scopes := by
  unfold context
  dsimp only
  split
  · next h => exact iff_of_true rfl (List.contains_iff_mem.1 h)
  · next h =>
    refine iff_of_false (fun hscope ↦ ?_) fun hmem ↦ h (List.contains_iff_mem.2 hmem)
    split at hscope <;> cases hscope

namespace AuthMiddleware

/-- `AuthMiddleware::is_bypass`. -/
def isBypass (auth : AuthMiddleware) : Bool := auth.masterKey.isNone

variable (sha256 : String → String) (auth : AuthMiddleware) (token : String) (now : ℕ)

/-- The token is the master key. -/
def isMaster : Bool :=
  auth.masterKey.any fun key ↦ constantTimeEq token.toUTF8.data.toList key.toUTF8.data.toList

/-- `AuthMiddleware::authenticate`. -/
def authenticate : Except Unit (Option AuthContext) :=
  if auth.isMaster token then .ok (some .master)
  else
    match auth.store.validate sha256 token now with
    | .ok key => .ok (key.map ApiKey.context)
    | .error () => .error ()

variable {sha256 auth token now}

theorem isMaster_iff : auth.isMaster token ↔ auth.masterKey = some token := by
  simp only [isMaster, Option.any_eq_true, constantTimeEq_toUTF8_iff]
  constructor
  · rintro ⟨key, hkey, rfl⟩
    exact hkey
  · intro h
    exact ⟨token, h, rfl⟩

theorem authenticate_cases {ctx : AuthContext}
    (h : auth.authenticate sha256 token now = .ok (some ctx)) :
    (auth.masterKey = some token ∧ ctx = .master) ∨
      ∃ key, auth.store.Holds sha256 token key ∧ ctx = key.context ∧ key.enabled ∧
        ∀ e ∈ key.expiresAt, now ≤ e := by
  rw [authenticate] at h
  split at h
  · next hmaster => exact .inl ⟨isMaster_iff.1 hmaster, (Option.some.inj (Except.ok.inj h)).symm⟩
  · right
    split at h
    · next validated hvalidate =>
      obtain ⟨masked, rfl, hctx⟩ := Option.map_eq_some_iff.1 (Except.ok.inj h)
      obtain ⟨key, hholds, rfl, henabled, hexpires⟩ := StoreBackend.holds_of_validate hvalidate
      exact ⟨key, hholds, hctx.symm, henabled, hexpires⟩
    · cases h

end AuthMiddleware

end Himadri
