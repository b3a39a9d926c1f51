import Himadri.Server.CombinedAuth
import Himadri.Transition.Copies

/-!
# The rotation of the signing keys

The key set of an issuer is fetched at the boot and then by the task that `init_jwt_discovery`
spawns, which calls `OidcDiscovery::refresh_jwks` again and again; one that fails leaves the keys as
they are. Meanwhile the issuer may publish other sets, and the middleware validates tokens with the
keys of the moment.

A key the issuer has withdrawn opens nothing once a refresh that began afterwards was stored
(`withdrawn_keys_end`), and one it goes on publishing is never refused, however often the others are
replaced and whichever refreshes fail (`published_keys_open`).
-/

namespace Himadri

variable {κ : Type*}

namespace OidcDiscovery

/-- `OidcDiscovery::refresh_jwks`, with what `fetch_jwks` gets; the caller logs its error. -/
def refreshJwks (discovery : OidcDiscovery κ) (fetched : Option (List (Jwk κ))) :
    OidcDiscovery κ :=
  match fetched with
  | some keys => { discovery with jwks := keys }
  | none => discovery

/-- The discovery of the moment. -/
def during (discovery : OidcDiscovery κ) (s : Copies.Run (List (Jwk κ))) : OidcDiscovery κ :=
  { discovery with jwks := s.copy }

/-- To store an answer is to refresh the discovery with it. -/
theorem during_store {s s' : Copies.Run (List (Jwk κ))} {since : ℕ}
    {answer : Option (List (Jwk κ))} (discovery : OidcDiscovery κ)
    (hanswered : s.refresher = .answered since answer) (hstore : s.step? .store = some s') :
    discovery.during s' = (discovery.during s).refreshJwks answer := by
  rw [Copies.Run.step?, hanswered] at hstore
  rcases answer with - | keys
  · obtain rfl := Option.some.inj hstore
    rfl
  · obtain rfl := Option.some.inj hstore
    rfl

end OidcDiscovery

/-- The runs of the refresher: what is published is what `fetch_jwks` gets at the address of the
boot. -/
def keyRotation (e : BootEnv κ) :
    TransitionSystem (Copies.Run (List (Jwk κ))) (Copies.Op (List (Jwk κ))) :=
  Copies.runs fun keys ↦ ∃ discovery, e.initJwtDiscovery = some (some discovery) ∧
    discovery.jwks = keys

/-- A token of an issuer's, signed with a key that is known by its id, that is accepted now. -/
structure OidcDiscovery.Opens (jwt : Jsonwebtoken κ) (discovery : OidcDiscovery κ) (token : String)
    (now : ℕ) (kid : String) (jwk : Jwk κ) (claims : JwtClaims) : Prop where
  form : looksLikeJwt token
  kid : jwt.kid token = some kid
  signed : ∃ algorithm ∈ jwk.algorithm, ∃ key ∈ jwk.key,
    jwt.Signed token algorithm key claims ∧ (discovery.validation algorithm).Accepts now claims

section Rotation

variable {jwt : Jsonwebtoken κ} {sha256 : String → String} {e : BootEnv κ} {auth : CombinedAuth κ}
  {s s' : Copies.Run (List (Jwk κ))} {r : AuthRequest κ}

/-- A token signed with the first key of its id in the set is validated. -/
theorem OidcDiscovery.Opens.validateToken {discovery : OidcDiscovery κ} {token kid : String}
    {now : ℕ} {jwk : Jwk κ} {claims : JwtClaims}
    (h : discovery.Opens jwt token now kid jwk claims)
    (hfind : discovery.jwks.find? (·.keyId == some kid) = some jwk) :
    discovery.validateToken jwt token now = some claims := by
  obtain ⟨algorithm, halgorithm, key, hkey, hsigned, haccepts⟩ := h.signed
  rw [OidcDiscovery.validateToken, h.kid]
  dsimp only
  rw [hfind]
  dsimp only
  rw [Option.mem_def.1 halgorithm, Option.mem_def.1 hkey]
  exact jwt.decode_eq_some.2 ⟨hsigned, haccepts⟩

/-- The boot built the discovery whose keys are refreshed. -/
theorem exists_jwt_of_reachable (hboot : e.boot = some auth) (hs : (keyRotation e).Reachable s) :
    ∃ discovery, auth.jwt = some discovery := by
  have hinit : ∃ discovery, e.initJwtDiscovery = some (some discovery) := by
    induction hs with
    | init hs =>
      obtain ⟨-, ⟨discovery, hdiscovery, -⟩, -⟩ := hs
      exact ⟨discovery, hdiscovery⟩
    | step _ _ ih => exact ih
  obtain ⟨discovery, hdiscovery⟩ := hinit
  rw [BootEnv.boot] at hboot
  split at hboot
  · cases hboot
  · rw [hdiscovery] at hboot
    obtain rfl := Option.some.inj hboot
    exact ⟨discovery, rfl⟩

theorem bypasses_of_reachable (hboot : e.boot = some auth) (hs : (keyRotation e).Reachable s) :
    auth.bypasses = false := by
  obtain ⟨discovery, hjwt⟩ := exists_jwt_of_reachable hboot hs
  rw [CombinedAuth.bypasses, hjwt]
  rfl

/-- **Withdrawn keys end.** Once a refresh that began after some moment was stored, whoever is let
in would be let in with a key set the issuer published since that moment. -/
theorem withdrawn_keys_end (hboot : e.boot = some auth) (hs : (keyRotation e).Reachable s)
    (hasleep : s.refresher = .asleep) (hleads : (keyRotation e).Leads s s')
    (hrefreshed : s.refreshes < s'.refreshes) (hkeys : r.jwks = s'.copy) {ctx : AuthContext}
    (hnext : auth.middleware jwt sha256 (requiredRoles e.vars) r = .next ctx) :
    ∃ keys, s'.PublishedSince s.version keys ∧
      ∃ credential, e.Admits jwt sha256 { r with jwks := keys } ctx credential := by
  have hpublished := Copies.published_of_refreshed hs hasleep hleads hrefreshed
  have hadmits := (BootEnv.built_of_boot hboot).admits (bypasses_of_reachable hboot hs) hnext
  rw [← hkeys] at hpublished
  exact ⟨r.jwks, hpublished, hadmits⟩

/-- **Published keys open**: a token signed with a key that every set holds which was published
since the last refresh began lets its principal in. -/
theorem published_keys_open (hboot : e.boot = some auth) (hs : (keyRotation e).Reachable s)
    (hkeys : r.jwks = s.copy) {discovery : OidcDiscovery κ} (hjwt : auth.jwt = some discovery)
    {token kid : String} {jwk : Jwk κ} {claims : JwtClaims} (htoken : r.token = some token)
    (hpublished : ∀ keys, s.PublishedSince s.since keys →
      keys.find? (·.keyId == some kid) = some jwk)
    (hopens : discovery.Opens jwt token r.now kid jwk claims)
    (hdev : auth.devAdminClaims jwt r token = none)
    (hrole : holdsRequired (requiredRoles e.vars) claims.intoAuthContext) :
    auth.middleware jwt sha256 (requiredRoles e.vars) r = .next claims.intoAuthContext := by
  have hfind : r.jwks.find? (·.keyId == some kid) = some jwk := by
    rw [hkeys]
    exact hpublished s.copy (Copies.copy_published hs)
  have hheld : { discovery with jwks := r.jwks }.Opens jwt token r.now kid jwk claims :=
    ⟨hopens.form, hopens.kid, hopens.signed⟩
  have hclaims : auth.oidcClaims jwt r token = some claims := by
    rw [CombinedAuth.oidcClaims, hjwt, Option.bind_some, if_pos hopens.form]
    exact hheld.validateToken hfind
  rw [CombinedAuth.middleware, bypasses_of_reachable hboot hs, if_neg Bool.false_ne_true, htoken]
  dsimp only
  rw [hdev]
  dsimp only
  rw [hclaims]
  exact if_pos hrole

end Rotation

/-! ### A rotation -/

/-- The claims of a user. -/
def userClaims : JwtClaims :=
  ⟨"user", "https://issuer.example", ["gateway"], 100, none, none, none, none, none, none, none, []⟩

/-- A key with its id. -/
def namedKey (kid : String) : Jwk String := ⟨some kid, some (.signing .rs256), .rsa, some kid⟩

/-- Tokens of one user that tell the key they are signed with. -/
def namedTokens : Jsonwebtoken String where
  kid token := (Text.split '.' token).head?
  Signed token _ key claims := token = key ++ ".header.payload" ∧ claims = userClaims
  decode token key validation now :=
    if token = key ++ ".header.payload" ∧ userClaims.iss = validation.issuer ∧
        validation.audience ∈ userClaims.aud ∧ now ≤ userClaims.exp + validation.leeway then
      some userClaims
    else none
  decode_eq_some := by
    intro token key validation now claims
    rw [Option.ite_none_right_eq_some]
    constructor
    · rintro ⟨⟨htoken, hissuer, haudience, hexp⟩, hclaims⟩
      obtain rfl := Option.some.inj hclaims
      exact ⟨⟨htoken, rfl⟩, hissuer, haudience, hexp, fun _ _ hnbf ↦ by cases hnbf⟩
    · rintro ⟨⟨htoken, rfl⟩, haccepts⟩
      exact ⟨⟨htoken, haccepts.issuer, haccepts.audience, haccepts.unexpired⟩, rfl⟩

/-- A gateway that is started while the issuer has one key. -/
def oneSigningKey : BootEnv String where
  vars := fun name ↦
    if name = "JWT_ISSUER" then some "https://issuer.example"
    else if name = "JWT_AUDIENCE" then some "gateway"
    else none
  config := .default
  discover := fun _ _ _ ↦ some [namedKey "a"]
  secret := ""
  store := .memory .empty .empty

/-- What it authenticates with. -/
def signedOnly : CombinedAuth String :=
  ⟨⟨.memory .empty .empty, none⟩,
    some ⟨"https://issuer.example", "gateway", [namedKey "a"]⟩, none⟩

/-- A request with a token of the key. -/
def signedRequest (kid : String) (keys : List (Jwk String)) : AuthRequest String :=
  ⟨some ("Bearer " ++ kid ++ ".header.payload"), none, .memory .empty .empty, keys, 0⟩

theorem oneSigningKey_boot : oneSigningKey.boot = some signedOnly := rfl

theorem oneSigningKey_init :
    (keyRotation oneSigningKey).Init (Copies.Run.start [namedKey "a"]) :=
  ⟨_, ⟨_, rfl, rfl⟩, rfl⟩

/-- The issuer adds a key and withdraws the first. -/
def firstKeyReplaced : List (Copies.Op (List (Jwk String))) :=
  [.publish (some [namedKey "a", namedKey "b"]), .publish (some [namedKey "b"])]

theorem withdrawn_keys_end_replaced : ∃ s s' : Copies.Run (List (Jwk String)),
    (keyRotation oneSigningKey).Leads s s' ∧ s.version = 2 ∧ s'.copy = [namedKey "b"] ∧
      ∃ keys, s'.PublishedSince 2 keys ∧ ∃ credential, oneSigningKey.Admits namedTokens id
        { signedRequest "b" s'.copy with jwks := keys } userClaims.intoAuthContext credential := by
  obtain ⟨s, hs, hasleep, hversion, hrefreshes, s', hleads, hcopy, hrefreshed⟩ :
      ∃ s, (keyRotation oneSigningKey).Reachable s ∧ s.refresher = .asleep ∧ s.version = 2 ∧
        s.refreshes = 0 ∧ ∃ s', (keyRotation oneSigningKey).Leads s s' ∧
          s'.copy = [namedKey "b"] ∧ s'.refreshes = 1 := by
    refine ⟨_, TransitionSystem.reachable_of_foldlM oneSigningKey_init firstKeyReplaced rfl, rfl,
      rfl, rfl, ?_⟩
    exact ⟨_, .tail (.tail (.tail .refl ⟨.wake, rfl⟩) ⟨.answer, rfl⟩) ⟨.store, rfl⟩, rfl, rfl⟩
  have hnext : signedOnly.middleware namedTokens id (requiredRoles oneSigningKey.vars)
      (signedRequest "b" s'.copy) = .next userClaims.intoAuthContext := by
    rw [hcopy]
    decide +kernel
  refine ⟨s, s', hleads, hversion, hcopy, ?_⟩
  rw [← hversion]
  exact withdrawn_keys_end oneSigningKey_boot hs hasleep hleads
    (by rw [hrefreshes, hrefreshed]; exact Nat.one_pos) rfl hnext

/-- A refresh that fails after the others. -/
def thenUnavailable : List (Copies.Op (List (Jwk String))) :=
  [.publish (some [namedKey "a", namedKey "b"]), .wake, .answer, .store, .publish none, .wake,
    .answer, .store]

theorem published_keys_open_unavailable : ∃ s, (keyRotation oneSigningKey).Reachable s ∧
    s.published.getLast? = some none ∧
    signedOnly.middleware namedTokens id (requiredRoles oneSigningKey.vars)
      (signedRequest "b" s.copy) = .next userClaims.intoAuthContext := by
  obtain ⟨s, hs, hsince, hpublished⟩ : ∃ s, (keyRotation oneSigningKey).Reachable s ∧ s.since = 1 ∧
      s.published = [some [namedKey "a"], some [namedKey "a", namedKey "b"], none] :=
    ⟨_, TransitionSystem.reachable_of_foldlM oneSigningKey_init thenUnavailable rfl, rfl, rfl⟩
  have hkey : ∀ keys, s.PublishedSince s.since keys →
      keys.find? (·.keyId == some "b") = some (namedKey "b") := by
    rintro keys ⟨v, hle, hv⟩
    rw [hsince] at hle
    rw [hpublished] at hv
    rcases v with - | - | - | v
    · exact absurd hle (by decide)
    · obtain rfl := Option.some.inj (Option.some.inj hv)
      rfl
    · cases hv
    · cases hv
  have htoken : (signedRequest "b" s.copy).token = some "b.header.payload" := rfl
  have hopens : OidcDiscovery.Opens namedTokens
      ⟨"https://issuer.example", "gateway", [namedKey "a"]⟩ "b.header.payload" 0 "b" (namedKey "b")
      userClaims :=
    ⟨by decide, rfl, .rs256, rfl, "b", rfl, ⟨rfl, rfl⟩, rfl, List.mem_cons_self, Nat.zero_le _,
      fun _ _ hnbf ↦ by cases hnbf⟩
  exact ⟨s, hs, by rw [hpublished]; rfl,
    published_keys_open oneSigningKey_boot hs rfl rfl htoken hkey hopens rfl rfl⟩

end Himadri
