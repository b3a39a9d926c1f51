import Himadri.Admin.KeyStore
import Himadri.Auth.Mechanisms

/-!
# Combined authentication

`CombinedAuth::middleware`, and the part of `main` that builds it. What is configured and what was
built at the boot are two things: a mechanism whose discovery failed is not built (`BootEnv.boot`).
-/

namespace Himadri

variable {κ : Type*}

/-! ### The middleware -/

/-- `looks_like_jwt`. -/
def looksLikeJwt (token : String) : Bool :=
  match Text.split '.' token with
  | [a, b, c] => !a.isEmpty && !b.isEmpty && !c.isEmpty
  | _ => false

/-- `REQUIRED_ROLES`. -/
def requiredRoles (vars : String → Option String) : List String :=
  ((vars "JWT_REQUIRED_ROLES").map Text.splitCsv).getD []

/-- `enforce_required_roles` passes. -/
def holdsRequired (required : List String) (ctx : AuthContext) : Bool :=
  required.isEmpty || ctx.hasAnyRole required

/-- `AuditStatus`, the two that failures of authentication are recorded with. -/
inductive AuthFailureStatus
  | unauthorized
  | forbidden
  deriving DecidableEq

/-- What `audit_failure` records. -/
structure AuthFailure where
  status : AuthFailureStatus
  reason : String
  remoteIp : Option String
  userId : Option String
  keyId : Option String
  deriving DecidableEq

/-- How the middleware ends: the next handler runs with a principal, or an error is returned. -/
inductive AuthOutcome
  | next (ctx : AuthContext)
  | refuse (status : ℕ) (message : String) (audit : Option AuthFailure)
  deriving DecidableEq

/-- A request as the middleware meets it, with the key store and the key set of the moment. -/
structure AuthRequest (κ : Type*) where
  /-- The `Authorization` header, where it is a string. -/
  authorization : Option String
  remoteIp : Option String
  store : StoreBackend
  jwks : List (Jwk κ)
  now : ℕ

/-- `CombinedAuth`. -/
structure CombinedAuth (κ : Type*) where
  apiKey : AuthMiddleware
  jwt : Option (OidcDiscovery κ)
  adminLogin : Option (AdminLogin κ)

/-- The bearer token of a request. -/
def AuthRequest.token (r : AuthRequest κ) : Option String :=
  r.authorization.bind (Text.stripPrefix · "Bearer ")

/-- A 401, recorded with its reason. -/
def AuthRequest.unauthorized (r : AuthRequest κ) (reason : String) : AuthOutcome :=
  .refuse 401 "invalid or missing bearer token"
    (some ⟨.unauthorized, reason, r.remoteIp, none, none⟩)

/-- Let a principal in that holds a required role. -/
def AuthRequest.gate (r : AuthRequest κ) (required : List String) (ctx : AuthContext) :
    AuthOutcome :=
  if holdsRequired required ctx then .next ctx
  else
    .refuse 403 "principal lacks a required role"
      (some ⟨.forbidden, "principal lacks a required role", r.remoteIp, ctx.userId, ctx.keyId⟩)

namespace CombinedAuth

variable (jwt : Jsonwebtoken κ) (sha256 : String → String) (required : List String)
  (auth : CombinedAuth κ) (r : AuthRequest κ)

/-- The claims of a dev admin token. -/
def devAdminClaims (token : String) : Option JwtClaims :=
  auth.adminLogin.bind fun login ↦
    if looksLikeJwt token then login.validate jwt token r.now else none

/-- The claims of an OIDC token. -/
def oidcClaims (token : String) : Option JwtClaims :=
  auth.jwt.bind fun discovery ↦
    if looksLikeJwt token then
      { discovery with jwks := r.jwks }.validateToken jwt token r.now
    else none

/-- The API keys and the master key. -/
def authenticateKey (token : String) : AuthOutcome :=
  match { auth.apiKey with store := r.store }.authenticate sha256 token r.now with
  | .ok (some ctx) => r.gate required ctx
  | .ok none => r.unauthorized "invalid or unknown token"
  | .error () => .refuse 500 "internal server error" none

/-- Nothing was built that could authenticate anyone. -/
def bypasses : Bool :=
  auth.jwt.isNone && auth.adminLogin.isNone && auth.apiKey.isBypass

/-- `CombinedAuth::middleware`. -/
def middleware : AuthOutcome :=
  if auth.bypasses then .next .anonymous
  else
    match r.token with
    | none => r.unauthorized "missing bearer token"
    | some token =>
      match auth.devAdminClaims jwt r token with
      -- no role is required here: the login is for when their source is down
      | some claims => .next claims.intoAuthContext
      | none =>
        match auth.oidcClaims jwt r token with
        | some claims => r.gate required claims.intoAuthContext
        | none => auth.authenticateKey sha256 required r token

end CombinedAuth

/-! ### The boot -/

/-- What the process is started with. -/
structure BootEnv (κ : Type*) where
  /-- `std::env::var(..).ok()`. -/
  vars : String → Option String
  /-- The configuration as it was loaded. -/
  config : Config
  /-- `OidcDiscovery::new`: the key set, or `none` where the discovery fails. -/
  discover : (issuer audience : String) → (jwksUri : Option String) → Option (List (Jwk κ))
  /-- The secret drawn for the dev admin login. -/
  secret : κ
  store : StoreBackend

/-- `flag_is_truthy`. -/
def flagIsTruthy (vars : String → Option String) (name : String) : Bool :=
  (vars name).any fun v ↦ ["1", "true", "yes"].contains (Text.toAsciiLowercase (Text.trim v))

/-- `env_is_nondev_deployment`. -/
def envIsNondevDeployment (value : Option String) : Bool :=
  value.any fun v ↦
    ["production", "prod", "staging"].contains (Text.toAsciiLowercase (Text.trim v))

namespace BootEnv

variable (e : BootEnv κ)

/-- The configuration of the process: the variable overrides the file. -/
def bootConfig : Config :=
  match e.vars "MASTER_KEY" with
  | some key => { e.config with masterKey := some key }
  | none => e.config

/-- `auth_is_required`. -/
def authIsRequired : Bool :=
  flagIsTruthy e.vars "REQUIRE_AUTH" ||
    envIsNondevDeployment ((e.vars "RUST_ENV").or (e.vars "HIMADRI_ENV"))

/-- `master_key_configured`. -/
def masterKeyConfigured : Bool := e.bootConfig.masterKey.any fun k ↦ !(Text.trim k).isEmpty

/-- The issuer, where one is configured. -/
def issuer : Option String := (e.vars "JWT_ISSUER").filter (!·.isEmpty)

/-- The audience tokens must name. -/
def audience : String := (e.vars "JWT_AUDIENCE").getD ""

/-- `init_jwt_discovery`; `none` where the process exits. -/
def initJwtDiscovery : Option (Option (OidcDiscovery κ)) :=
  match e.issuer with
  | none => some none
  | some issuer =>
    if e.audience.isEmpty then none
    else
      some ((e.discover issuer e.audience (e.vars "JWT_JWKS_URI")).map fun jwks ↦
        ⟨issuer, e.audience, jwks⟩)

/-- What `main` authenticates with, where it does not exit over it. -/
def boot : Option (CombinedAuth κ) :=
  if e.authIsRequired && !e.masterKeyConfigured then none
  else
    e.initJwtDiscovery.map fun jwt ↦
      { apiKey := ⟨e.store, e.bootConfig.masterKey⟩
        jwt
        adminLogin := AdminLogin.fromEnv e.vars e.secret }

/-! ### What is configured -/

/-- The dev admin login is configured. -/
def devAdminConfigured : Bool :=
  (e.vars "DEV_ADMIN_PASSWORD").any fun password ↦ !(Text.trim password).isEmpty

/-- One of the three mechanisms is configured. -/
def Configured : Prop :=
  e.bootConfig.masterKey.isSome ∨ e.issuer.isSome ∨ e.devAdminConfigured

end BootEnv

/-- What a principal can show. -/
inductive Credential
  | devAdmin (claims : JwtClaims)
  | oidc (claims : JwtClaims)
  | masterKey
  | apiKey (key : ApiKey)

namespace Credential

/-- The principal a credential makes. -/
def context : Credential → AuthContext
  | .devAdmin claims | .oidc claims => claims.intoAuthContext
  | .masterKey => .master
  | .apiKey key => key.context

/-- The credential is one of an admin. -/
def CarriesAdmin : Credential → Prop
  | .devAdmin claims | .oidc claims => claims.carriesAdmin
  | .masterKey => True
  | .apiKey key => "admin" ∈ key.scopes

/-- A required role must be held beside the credential. -/
def NeedsRole : Credential → Prop
  | .devAdmin _ => False
  | .oidc _ | .masterKey | .apiKey _ => True

theorem context_ne_anonymous (credential : Credential) : credential.context ≠ .anonymous := by
  intro h
  have hname := congrArg (fun ctx ↦ ctx.apiKey.toList) h
  cases credential with
  | masterKey => exact absurd hname (by decide)
  | devAdmin claims | oidc claims =>
    simp [context, JwtClaims.intoAuthContext, AuthContext.anonymous] at hname
  | apiKey key => simp [context, ApiKey.context, AuthContext.anonymous] at hname

theorem carriesAdmin_of_scope {credential : Credential}
    (h : credential.context.scope = .admin) : credential.CarriesAdmin := by
  cases credential with
  | masterKey => trivial
  | devAdmin claims | oidc claims => exact claims.scope_eq_admin_iff.1 h
  | apiKey key => exact ApiKey.scope_eq_admin_iff.1 h

end Credential

/-! ### Who is let in -/

namespace BootEnv

section Spec

variable (jwt : Jsonwebtoken κ) (sha256 : String → String) (e : BootEnv κ) (r : AuthRequest κ)

/-- The credential is the token's, under a mechanism that is configured. -/
def Valid (token : String) : Credential → Prop
  | .devAdmin claims =>
    e.devAdminConfigured ∧ AdminLogin.Valid jwt ⟨e.secret⟩ token r.now claims
  | .oidc claims =>
    ∃ issuer ∈ e.issuer, OidcDiscovery.Valid jwt ⟨issuer, e.audience, r.jwks⟩ token r.now claims
  | .masterKey => e.bootConfig.masterKey = some token
  | .apiKey key =>
    r.store.Holds sha256 token key ∧ key.enabled ∧ ∀ expiry ∈ key.expiresAt, r.now ≤ expiry

/-- The request is let in with the principal its credential makes. -/
structure Admits (ctx : AuthContext) (credential : Credential) : Prop where
  valid : ∃ token, r.authorization = some ("Bearer " ++ token) ∧
    e.Valid jwt sha256 r token credential
  context : ctx = credential.context
  role : credential.NeedsRole → holdsRequired (requiredRoles e.vars) ctx
  named : ctx ≠ .anonymous
  admin : ctx.scope = .admin → credential.CarriesAdmin

/-- Once a mechanism is configured, the next handler only runs for those who are let in. -/
def NeverBypassed : Prop :=
  e.Configured → ∀ auth, e.boot = some auth → ∀ r ctx,
    auth.middleware jwt sha256 (requiredRoles e.vars) r = .next ctx →
      ∃ credential, e.Admits jwt sha256 r ctx credential

/-- The issuer is the one mechanism that is configured, and its discovery fails. -/
structure LeftOpen : Prop where
  masterKey : e.bootConfig.masterKey = none
  devAdmin : e.devAdminConfigured = false
  notRequired : e.authIsRequired = false
  discovery : ∃ issuer ∈ e.issuer, e.audience ≠ "" ∧
    e.discover issuer e.audience (e.vars "JWT_JWKS_URI") = none

end Spec

variable {jwt : Jsonwebtoken κ} {sha256 : String → String} {e : BootEnv κ} {auth : CombinedAuth κ}
  {r : AuthRequest κ}

theorem fromEnv_eq (vars : String → Option String) (secret : κ) : AdminLogin.fromEnv vars secret =
    if (vars "DEV_ADMIN_PASSWORD").any fun p ↦ !(Text.trim p).isEmpty then some ⟨secret⟩
    else none := by
  unfold AdminLogin.fromEnv
  cases vars "DEV_ADMIN_PASSWORD" with
  | none => rfl
  | some password => cases h : (Text.trim password).isEmpty <;> simp [h]

/-- What is built of what is configured. -/
structure Built (e : BootEnv κ) (auth : CombinedAuth κ) : Prop where
  masterKey : auth.apiKey.masterKey = e.bootConfig.masterKey
  adminLogin : auth.adminLogin = if e.devAdminConfigured then some ⟨e.secret⟩ else none
  required : e.authIsRequired → e.bootConfig.masterKey.isSome
  jwt : ∀ discovery ∈ auth.jwt, e.issuer = some discovery.issuer ∧ discovery.audience = e.audience
  discovery : auth.jwt = none → ∀ issuer ∈ e.issuer, e.audience ≠ "" ∧
    e.discover issuer e.audience (e.vars "JWT_JWKS_URI") = none

theorem built_of_boot (h : e.boot = some auth) : e.Built auth := by
  rw [boot] at h
  split at h
  · cases h
  · next hrequired =>
    obtain ⟨discovered, hinit, rfl⟩ := Option.map_eq_some_iff.1 h
    refine ⟨rfl, fromEnv_eq e.vars e.secret, fun hrequires ↦ ?_, ?_, ?_⟩
    -- the process has not exited, so a master key was there
    · rw [hrequires, Bool.true_and, Bool.not_eq_true', Bool.not_eq_false] at hrequired
      obtain ⟨key, hkey, -⟩ := (Option.any_eq_true _ _).1 hrequired
      exact Option.isSome_of_mem hkey
    · rintro discovery hdiscovery
      rw [initJwtDiscovery] at hinit
      split at hinit
      · obtain rfl := Option.some.inj hinit
        cases hdiscovery
      · next issuer hissuer =>
        split at hinit
        · cases hinit
        · obtain rfl := Option.some.inj hinit
          obtain ⟨jwks, -, rfl⟩ := Option.map_eq_some_iff.1 hdiscovery
          exact ⟨hissuer, rfl⟩
    · intro hnone issuer hissuer
      rw [initJwtDiscovery, Option.mem_def.1 hissuer] at hinit
      dsimp only at hinit hnone
      split at hinit
      · cases hinit
      · next haudience =>
        rw [hnone] at hinit
        refine ⟨fun hempty ↦ haudience ?_, Option.map_eq_none_iff.1 (Option.some.inj hinit)⟩
        rw [hempty]
        rfl

/-- A gateway that bypasses authentication although it is configured was left open. -/
theorem Built.leftOpen (h : e.Built auth) (hconfigured : e.Configured) (hbypass : auth.bypasses) :
    e.LeftOpen := by
  simp only [CombinedAuth.bypasses, AuthMiddleware.isBypass, Bool.and_eq_true,
    Option.isNone_iff_eq_none] at hbypass
  obtain ⟨⟨hjwt, hlogin⟩, hmaster⟩ := hbypass
  rw [h.masterKey] at hmaster
  have hdev : e.devAdminConfigured = false := by
    by_contra hdev
    rw [h.adminLogin, if_pos (Bool.eq_true_of_not_eq_false hdev)] at hlogin
    cases hlogin
  refine ⟨hmaster, hdev, ?_, ?_⟩
  · by_contra hrequired
    have hsome := h.required (Bool.eq_true_of_not_eq_false hrequired)
    rw [hmaster] at hsome
    cases hsome
  · rcases hconfigured with hsome | hissuer | hsome
    · rw [hmaster] at hsome
      cases hsome
    · obtain ⟨issuer, hissuer⟩ := Option.isSome_iff_exists.1 hissuer
      exact ⟨issuer, hissuer, h.discovery hjwt issuer hissuer⟩
    · rw [hdev] at hsome
      cases hsome

/-- The roles gate passes a principal on only if it holds a required role. -/
theorem next_of_gate {required : List String} {ctx ctx' : AuthContext}
    (h : r.gate required ctx = .next ctx') : holdsRequired required ctx ∧ ctx' = ctx := by
  rw [AuthRequest.gate] at h
  split at h
  · next hrole => exact ⟨hrole, (AuthOutcome.next.inj h).symm⟩
  · cases h

/-- A valid credential lets its principal in. -/
theorem admits_of_valid {token : String} {credential : Credential} {ctx : AuthContext}
    (htoken : r.token = some token) (hvalid : e.Valid jwt sha256 r token credential)
    (hctx : ctx = credential.context)
    (hrole : credential.NeedsRole → holdsRequired (requiredRoles e.vars) ctx) :
    e.Admits jwt sha256 r ctx credential := by
  obtain ⟨header, hheader, hstrip⟩ := Option.bind_eq_some_iff.1 htoken
  refine ⟨⟨token, ?_, hvalid⟩, hctx, hrole, ?_, fun hscope ↦ ?_⟩
  · rw [hheader, Text.stripPrefix_eq_some.1 hstrip]
  · rw [hctx]
    exact credential.context_ne_anonymous
  · exact Credential.carriesAdmin_of_scope (hctx ▸ hscope)

theorem Built.devAdmin (h : e.Built auth) {token : String} {claims : JwtClaims}
    (hclaims : auth.devAdminClaims jwt r token = some claims) :
    e.Valid jwt sha256 r token (.devAdmin claims) := by
  obtain ⟨login, hlogin, hvalidate⟩ := Option.bind_eq_some_iff.1 hclaims
  obtain ⟨-, hvalidate⟩ := Option.ite_none_right_eq_some.1 hvalidate
  rw [h.adminLogin] at hlogin
  obtain ⟨hdev, hlogin⟩ := Option.ite_none_right_eq_some.1 hlogin
  obtain rfl := Option.some.inj hlogin
  exact ⟨hdev, AdminLogin.validate_eq_some.1 hvalidate⟩

theorem Built.oidc (h : e.Built auth) {token : String} {claims : JwtClaims}
    (hclaims : auth.oidcClaims jwt r token = some claims) :
    e.Valid jwt sha256 r token (.oidc claims) := by
  obtain ⟨discovery, hdiscovery, hvalidate⟩ := Option.bind_eq_some_iff.1 hclaims
  obtain ⟨-, hvalidate⟩ := Option.ite_none_right_eq_some.1 hvalidate
  obtain ⟨hissuer, haudience⟩ := h.jwt discovery hdiscovery
  refine ⟨discovery.issuer, hissuer, ?_⟩
  rw [← haudience]
  exact OidcDiscovery.valid_of_validateToken hvalidate

theorem Built.key (h : e.Built auth) {token : String} {ctx : AuthContext}
    (hkey : { auth.apiKey with store := r.store }.authenticate sha256 token r.now =
      .ok (some ctx)) :
    ∃ credential, credential.context = ctx ∧ e.Valid jwt sha256 r token credential := by
  rcases AuthMiddleware.authenticate_cases hkey with ⟨hmaster, rfl⟩ | ⟨key, hholds, rfl, hvalid⟩
  · exact ⟨.masterKey, rfl, h.masterKey.symm.trans hmaster⟩
  · exact ⟨.apiKey key, rfl, hholds, hvalid⟩

/-- Without the bypass, whoever gets past the middleware is let in. -/
theorem Built.admits (h : e.Built auth) (hbypass : auth.bypasses = false) {ctx : AuthContext}
    (hnext : auth.middleware jwt sha256 (requiredRoles e.vars) r = .next ctx) :
    ∃ credential, e.Admits jwt sha256 r ctx credential := by
  rw [CombinedAuth.middleware, hbypass, if_neg Bool.false_ne_true] at hnext
  split at hnext
  · cases hnext
  · next token htoken =>
    -- the mechanisms in their order: dev admin, OIDC, then the key store
    split at hnext
    · next claims hclaims =>
      obtain rfl := AuthOutcome.next.inj hnext
      exact ⟨_, admits_of_valid htoken (h.devAdmin hclaims) rfl fun h ↦ h.elim⟩
    · split at hnext
      · next claims hclaims =>
        obtain ⟨hrole, rfl⟩ := next_of_gate hnext
        exact ⟨_, admits_of_valid htoken (h.oidc hclaims) rfl fun _ ↦ hrole⟩
      · rw [CombinedAuth.authenticateKey] at hnext
        split at hnext
        · next ctx' hkey =>
          obtain ⟨hrole, rfl⟩ := next_of_gate hnext
          obtain ⟨credential, hcontext, hvalid⟩ := h.key hkey
          exact ⟨credential, admits_of_valid htoken hvalid hcontext.symm fun _ ↦ hrole⟩
        · cases hnext
        · cases hnext

/-- A gateway that is left open boots, and bypasses. -/
theorem LeftOpen.boot (h : e.LeftOpen) :
    e.boot = some ⟨⟨e.store, none⟩, none, none⟩ := by
  obtain ⟨issuer, hissuer, haudience, hdiscover⟩ := h.discovery
  have hinit : e.initJwtDiscovery = some none := by
    rw [initJwtDiscovery, Option.mem_def.1 hissuer]
    dsimp only
    rw [if_neg (by simpa using haudience), hdiscover]
    rfl
  have hlogin : AdminLogin.fromEnv e.vars e.secret = none := by
    rw [fromEnv_eq]
    exact if_neg (Bool.not_eq_true _ ▸ h.devAdmin)
  rw [BootEnv.boot, h.notRequired, hinit, hlogin, h.masterKey]
  rfl

/-- **Configured authentication is bypassed exactly where the issuer is the one mechanism that is
configured and its discovery fails.** -/
theorem neverBypassed_iff : e.NeverBypassed jwt sha256 ↔ ¬ e.LeftOpen := by
  constructor
  · intro h hopen
    obtain ⟨issuer, hissuer, -⟩ := hopen.discovery
    -- anyone is let in as the anonymous admin, even without a token
    obtain ⟨credential, hadmits⟩ := h (.inr (.inl (Option.isSome_of_mem hissuer))) _ hopen.boot
      ⟨none, none, e.store, [], 0⟩ .anonymous rfl
    exact hadmits.named rfl
  · intro hclosed hconfigured auth hboot r ctx hnext
    have hbuilt := built_of_boot hboot
    refine hbuilt.admits ?_ hnext
    by_contra hbypass
    exact hclosed (hbuilt.leftOpen hconfigured (Bool.eq_true_of_not_eq_false hbypass))

/-- An issuer that cannot be asked at the boot. -/
def unreachableIssuer : BootEnv Unit where
  vars := fun name ↦
    if name = "JWT_ISSUER" then some "https://issuer.example"
    else if name = "JWT_AUDIENCE" then some "gateway"
    else none
  config := .default
  discover := fun _ _ _ ↦ none
  secret := ()
  store := .memory .empty .empty

theorem unreachable_issuer_bypassed :
    ¬ unreachableIssuer.NeverBypassed .none id := by
  intro h
  obtain ⟨credential, hadmits⟩ := h (.inr (.inl (by decide))) _ rfl
    ⟨none, none, .memory .empty .empty, [], 0⟩ .anonymous rfl
  exact hadmits.named rfl

end BootEnv

end Himadri
