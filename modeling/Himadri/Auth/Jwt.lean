import Himadri.Core.Request
import Himadri.Core.Text
import Mathlib.Data.List.Dedup
import Mathlib.Data.List.Sort

/-!
# JSON web tokens

The claims of `himadri-auth`'s `jwt`, the principal they make, and how a token is decoded. The crate
that checks signatures is not part of the repository: it is a parameter, with what is documented of
it as laws (`Jsonwebtoken`).
-/

namespace Himadri

/-- `JwtClaims`. -/
structure JwtClaims where
  sub : String
  iss : String
  /-- The audiences of the token; the source keeps several, joined by commas, once they are
  checked. -/
  aud : List String
  exp : ℕ
  nbf : Option ℕ
  scope : Option String
  orgId : Option String
  teamId : Option String
  roles : Option (List String)
  rateLimitRpm : Option ℕ
  budgetLimitUsd : Option ℚ
  /-- The other claims, in the order the map iterates them. -/
  custom : List (String × Json)

namespace JwtClaims

variable (claims : JwtClaims)

/-- `JwtClaims::scopes`. -/
def scopes : List String := (claims.scope.map Text.splitWhitespace).getD []

/-- The roles a claim of Zitadel's grants: the names of its members. -/
def projectRoles (claim : String × Json) : List String :=
  if Text.startsWith claim.1 "urn:zitadel:iam:org:project:" && Text.endsWith claim.1 ":roles" then
    match claim.2 with
    | .object members => members.map (·.1)
    | _ => []
  else []

/-- `JwtClaims::roles`. -/
def allRoles : List String :=
  ((claims.roles.getD [] ++ claims.custom.flatMap projectRoles).insertionSort (· ≤ ·)).dedup

/-- The roles or scopes that make an admin. -/
def carriesAdmin : Bool :=
  claims.allRoles.any (fun r ↦ r == "admin" || r == "gateway-admin") ||
    claims.scopes.contains "admin"

/-- The roles or scopes that make a reader. -/
def carriesReadOnly : Bool :=
  claims.allRoles.any (fun r ↦ r == "read-only" || r == "readonly" || r == "read") ||
    claims.scopes.contains "read"

/-- `JwtClaims::into_auth_context`. -/
def intoAuthContext : AuthContext where
  apiKey := "jwt:" ++ claims.sub
  keyId := some claims.sub
  scope :=
    if claims.carriesAdmin then .admin else if claims.carriesReadOnly then .readOnly else .apiKey
  orgId := claims.orgId
  teamId := claims.teamId
  userId := some claims.sub
  rateLimitOverride :=
    claims.rateLimitRpm.map fun rpm ↦
      { requestsPerSecond := some ((rpm + 59) / 60), burstSize := some rpm }
  roles := claims.allRoles
  budgetLimitUsd := claims.budgetLimitUsd

theorem scope_eq_admin_iff : claims.intoAuthContext.scope = .admin ↔ claims.carriesAdmin := by
  unfold intoAuthContext
  dsimp only
  split
  · next h => exact iff_of_true rfl h
  · next h =>
    refine iff_of_false (fun hscope ↦ ?_) h
    split at hscope <;> cases hscope

end JwtClaims

/-! ### Decoding -/

/-- `jsonwebtoken::Algorithm`. -/
inductive Algorithm
  | hs256
  | hs384
  | hs512
  | es256
  | es384
  | rs256
  | rs384
  | rs512
  | ps256
  | ps384
  | ps512
  | edDSA
  deriving DecidableEq

/-- `jsonwebtoken::Validation`, as the gateway sets it. -/
structure Validation where
  algorithm : Algorithm
  issuer : String
  audience : String
  leeway : ℕ
  validateNbf : Bool

/-- The registered claims pass the validation at a time. -/
structure Validation.Accepts (validation : Validation) (now : ℕ) (claims : JwtClaims) : Prop where
  issuer : claims.iss = validation.issuer
  audience : validation.audience ∈ claims.aud
  unexpired : now ≤ claims.exp + validation.leeway
  started : validation.validateNbf → ∀ nbf ∈ claims.nbf, nbf ≤ now + validation.leeway

/-- What the gateway relies on of `jsonwebtoken`, for keys of a type `κ`. -/
structure Jsonwebtoken (κ : Type*) where
  /-- The `kid` of `decode_header`; `none` also where there is no header. -/
  kid : (token : String) → Option String
  /-- The token is signed with the key and holds the claims. -/
  Signed : (token : String) → Algorithm → κ → JwtClaims → Prop
  /-- `decode`; every error is `none`. -/
  decode : (token : String) → κ → Validation → (now : ℕ) → Option JwtClaims
  decode_eq_some : ∀ {token key validation now claims},
    decode token key validation now = some claims ↔
      Signed token validation.algorithm key claims ∧ validation.Accepts now claims

/-- Where no token is signed with any key. -/
def Jsonwebtoken.none {κ : Type*} : Jsonwebtoken κ where
  kid := fun _ ↦ .none
  Signed := fun _ _ _ _ ↦ False
  decode := fun _ _ _ _ ↦ .none
  decode_eq_some := by simp

end Himadri
