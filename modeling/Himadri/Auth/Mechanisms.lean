import Himadri.Auth.Jwt

/-!
# The two kinds of tokens

`AdminLogin`, whose tokens are signed with a secret of the boot, and `OidcDiscovery`, whose tokens
are signed with a key of the issuer's set. Their errors are dropped where they are only logged.
-/

namespace Himadri

variable {κ : Type*}

/-! ### The dev admin login -/

/-- `DEV_ADMIN_ISSUER`. -/
def devAdminIssuer : String := "himadri:dev-admin-login"

/-- `DEV_ADMIN_AUDIENCE`. -/
def devAdminAudience : String := "himadri:dashboard"

/-- `AdminLogin`, as far as tokens are validated. -/
structure AdminLogin (κ : Type*) where
  secret : κ

namespace AdminLogin

/-- `AdminLogin::from_env`; the secret is drawn anew at every boot. -/
def fromEnv (vars : String → Option String) (secret : κ) : Option (AdminLogin κ) :=
  match vars "DEV_ADMIN_PASSWORD" with
  | none => none
  | some password => if (Text.trim password).isEmpty then none else some ⟨secret⟩

/-- The validation of `AdminLogin::validate`. -/
def validation : Validation := ⟨.hs256, devAdminIssuer, devAdminAudience, 30, false⟩

/-- `AdminLogin::validate`. -/
def validate (jwt : Jsonwebtoken κ) (login : AdminLogin κ) (token : String) (now : ℕ) :
    Option JwtClaims :=
  jwt.decode token login.secret validation now

/-- A token signed with the secret of the boot, for the dashboard, and not expired. -/
def Valid (jwt : Jsonwebtoken κ) (login : AdminLogin κ) (token : String) (now : ℕ)
    (claims : JwtClaims) : Prop :=
  jwt.Signed token .hs256 login.secret claims ∧ validation.Accepts now claims

theorem validate_eq_some {jwt : Jsonwebtoken κ} {login : AdminLogin κ} {token : String} {now : ℕ}
    {claims : JwtClaims} :
    login.validate jwt token now = some claims ↔ login.Valid jwt token now claims :=
  jwt.decode_eq_some

end AdminLogin

/-! ### OIDC -/

/-- `KeyAlgorithm`: one that signs, or another. -/
inductive KeyAlgorithm
  | signing (algorithm : Algorithm)
  | other
  deriving DecidableEq

/-- `EllipticCurve`. -/
inductive EllipticCurve
  | p256
  | p384
  | p521
  | ed25519
  deriving DecidableEq

/-- `AlgorithmParameters`. -/
inductive AlgorithmParameters
  | ellipticCurve (curve : EllipticCurve)
  | rsa
  | octetKey
  | octetKeyPair
  deriving DecidableEq

/-- `Jwk`; `key` is what `DecodingKey::from_jwk` makes of it. -/
structure Jwk (κ : Type*) where
  keyId : Option String
  keyAlgorithm : Option KeyAlgorithm
  parameters : AlgorithmParameters
  key : Option κ

/-- `algorithm_for_jwk`. -/
def Jwk.algorithm (jwk : Jwk κ) : Option Algorithm :=
  match jwk.keyAlgorithm with
  | some (.signing algorithm) =>
    match algorithm with
    | .hs256 | .hs384 | .hs512 => none
    | algorithm => some algorithm
  | some .other => none
  | none =>
    match jwk.parameters with
    | .rsa => some .rs256
    | .ellipticCurve .p256 => some .es256
    | .ellipticCurve .p384 => some .es384
    | .ellipticCurve _ => none
    | .octetKeyPair => some .edDSA
    | .octetKey => none

/-- `OidcDiscovery`; its keys are those it holds at the moment. -/
structure OidcDiscovery (κ : Type*) where
  issuer : String
  audience : String
  jwks : List (Jwk κ)

namespace OidcDiscovery

variable (jwt : Jsonwebtoken κ) (discovery : OidcDiscovery κ) (token : String) (now : ℕ)

/-- The validation of `validate_token`; the leeway is the crate's own. -/
def validation (algorithm : Algorithm) : Validation :=
  ⟨algorithm, discovery.issuer, discovery.audience, 60, true⟩

/-- `OidcDiscovery::validate_token`. -/
def validateToken : Option JwtClaims :=
  match jwt.kid token with
  | none => none
  | some kid =>
    match discovery.jwks.find? (·.keyId == some kid) with
    | none => none
    | some jwk =>
      match jwk.algorithm, jwk.key with
      | some algorithm, some key => jwt.decode token key (discovery.validation algorithm) now
      | _, _ => none

/-- A token signed with a key of the issuer's set, for the audience, in its time. -/
def Valid (claims : JwtClaims) : Prop :=
  ∃ jwk ∈ discovery.jwks, ∃ algorithm ∈ jwk.algorithm, ∃ key ∈ jwk.key,
    jwt.Signed token algorithm key claims ∧ (discovery.validation algorithm).Accepts now claims

variable {jwt discovery token now}

theorem valid_of_validateToken {claims : JwtClaims}
    (h : discovery.validateToken jwt token now = some claims) :
    discovery.Valid jwt token now claims := by
  unfold validateToken at h
  split at h
  · cases h
  · split at h
    · cases h
    · next jwk hfind =>
      split at h
      · next algorithm key halgorithm hkey =>
        exact ⟨jwk, List.mem_of_find?_eq_some hfind, algorithm, halgorithm, key, hkey,
          jwt.decode_eq_some.1 h⟩
      · cases h

end OidcDiscovery

end Himadri
