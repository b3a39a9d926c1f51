import Himadri.Auth.Credentials
import Himadri.Core.IpAddr
import Himadri.Server.CombinedAuth
import Himadri.Transition.System

/-!
# Who reaches the admin routes

The routes of `build_router` with the layers they are behind, and the dev admin login, over runs of
boots, logins and requests. Whatever path and method a request has, the handlers of the admin API
are behind the authentication of `CombinedAuth` and the scope check (`Router.dispatch_admin`).

So an admin handler only runs for the anonymous principal of a gateway that authenticates nobody, or
for a credential of an admin; and where that is a token of the login, this very boot has issued it
for a username and a password that it accepts, no longer ago than its lifetime and the leeway
(`AccessRun.admin_reached`). The last part rests on what signatures are for: the secrets of boots
differ, and nobody else signs with them (`AccessRun.Lawful`).
-/

namespace Himadri

variable {κ : Type*}

/-! ### The dev admin login -/

/-- `AdminLogin`, whole. -/
structure DevAdminLogin (κ : Type*) extends AdminCredentials, AdminLogin κ where
  ttlSecs : ℕ

namespace DevAdminLogin

/-- `AdminLogin::from_env`; the secret is drawn anew at every boot. -/
def fromEnv (vars : String → Option String) (secret : κ) : Option (DevAdminLogin κ) :=
  ((vars "DEV_ADMIN_PASSWORD").filter fun p ↦ !(Text.trim p).isEmpty).map fun password ↦
    { username := (vars "DEV_ADMIN_USERNAME").getD "admin"
      password
      secret
      ttlSecs :=
        (((vars "DEV_ADMIN_TOKEN_TTL_SECS").bind parseU64).filter (0 < ·)).getD (12 * 60 * 60) }

variable (login : DevAdminLogin κ) (now : ℕ)

/-- The claims of a token that is issued at a time. -/
def claims : JwtClaims where
  sub := login.username
  iss := devAdminIssuer
  aud := [devAdminAudience]
  -- the sum wraps
  exp := (now + login.ttlSecs) % UInt64.size
  nbf := none
  scope := none
  orgId := none
  teamId := none
  roles := some ["admin"]
  rateLimitRpm := none
  budgetLimitUsd := none
  custom := []

/-- What the login validates is what the middleware validates with. -/
theorem toAdminLogin_fromEnv (vars : String → Option String) (secret : κ) :
    (fromEnv vars secret).map (·.toAdminLogin) = AdminLogin.fromEnv vars secret := by
  rw [fromEnv, AdminLogin.fromEnv, Option.map_map]
  rcases vars "DEV_ADMIN_PASSWORD" with - | password
  · rfl
  · rw [Option.filter_some]
    rcases hempty : (Text.trim password).isEmpty with - | -
    · simp [hempty]
    · simp [hempty]

theorem secret_fromEnv {vars : String → Option String} {secret : κ} {login : DevAdminLogin κ}
    (h : fromEnv vars secret = some login) : login.secret = secret := by
  obtain ⟨password, -, rfl⟩ := Option.map_eq_some_iff.1 h
  rfl

end DevAdminLogin

/-- What the gateway relies on of `jsonwebtoken` where it signs. -/
structure JwtIssuer (κ : Type*) extends Jsonwebtoken κ where
  /-- `encode`, with the header of `HS256`. -/
  encode : κ → JwtClaims → String
  /-- What the login encodes is decoded as it was. -/
  signed_encode : ∀ {login : DevAdminLogin κ} {now : ℕ} {claims : JwtClaims},
    Signed (encode login.secret (login.claims now)) .hs256 login.secret claims ↔
      claims = login.claims now

/-- `AdminLogin::issue`. -/
def DevAdminLogin.issue (login : DevAdminLogin κ) (now : ℕ) (jwt : JwtIssuer κ) : String :=
  jwt.encode login.secret (login.claims now)

/-! ### The router -/

/-- The three routers that `build_router` merges. -/
inductive RouteGroup
  /-- Behind no layer. -/
  | unlayered
  /-- Behind `CombinedAuth::middleware`. -/
  | api
  /-- Behind `CombinedAuth::middleware` and `require_admin_scope`. -/
  | admin
  deriving DecidableEq

/-- The handlers. -/
inductive Handler
  | health
  | metricsHandler
  | listModels
  | devAdminLogin
  | chatCompletions
  | completions
  | embeddings
  | passthrough
  | listKeys
  | createKey
  | getKey
  | updateKey
  | deleteKey
  | revokeKey
  | rotateKey
  | listModelsApi
  | createModel
  | getModel
  | updateModel
  | deleteModel
  | toggleModel
  | listAllModelEndpoints
  | listModelEndpoints
  | createModelEndpoint
  | getModelEndpoint
  | updateModelEndpoint
  | deleteModelEndpoint
  | toggleModelEndpoint
  | knownProviders
  | dashboard
  | usageStats
  | keyUsageStats
  | getConfig
  | updateConfig
  | configHistory
  | configRollback
  | listLogs
  | deleteLogs
  | reloadConfig
  deriving DecidableEq

/-- The handler is one of the admin API. -/
def Handler.isAdmin : Handler → Bool
  | .health | .metricsHandler | .listModels | .devAdminLogin => false
  | .chatCompletions | .completions | .embeddings | .passthrough => false
  | _ => true

/-- One `.route(..)` for one method. -/
structure Route where
  method : String
  path : String
  handler : Handler

/-- The path of a request is one of the route: a parameter is any segment that is not empty. -/
def Route.matchesPath (route : Route) (path : String) : Bool :=
  let segments := Text.split '/' route.path
  let segments' := Text.split '/' path
  segments.length == segments'.length && (segments.zip segments').all fun (segment, segment') ↦
    if Text.startsWith segment "\x7b" then !segment'.isEmpty else segment == segment'

namespace Router

/-- `public_routes`. -/
def publicRoutes : List Route :=
  [⟨"GET", "/health", .health⟩, ⟨"GET", "/metrics", .metricsHandler⟩,
    ⟨"GET", "/v1/models", .listModels⟩, ⟨"POST", "/auth/admin/login", .devAdminLogin⟩]

/-- `api_routes`, but for its fallback. -/
def apiRoutes : List Route :=
  [⟨"POST", "/v1/chat/completions", .chatCompletions⟩, ⟨"POST", "/v1/completions", .completions⟩,
    ⟨"POST", "/v1/embeddings", .embeddings⟩]

/-- `admin_routes`. -/
def adminRoutes : List Route :=
  [⟨"GET", "/admin/keys", .listKeys⟩, ⟨"POST", "/admin/keys", .createKey⟩,
    ⟨"GET", "/admin/keys/\x7bid\x7d", .getKey⟩, ⟨"PUT", "/admin/keys/\x7bid\x7d", .updateKey⟩,
    ⟨"DELETE", "/admin/keys/\x7bid\x7d", .deleteKey⟩,
    ⟨"POST", "/admin/keys/\x7bid\x7d/revoke", .revokeKey⟩,
    ⟨"POST", "/admin/keys/\x7bid\x7d/rotate", .rotateKey⟩,
    ⟨"GET", "/admin/models", .listModelsApi⟩, ⟨"POST", "/admin/models", .createModel⟩,
    ⟨"GET", "/admin/models/\x7bid\x7d", .getModel⟩,
    ⟨"PUT", "/admin/models/\x7bid\x7d", .updateModel⟩,
    ⟨"DELETE", "/admin/models/\x7bid\x7d", .deleteModel⟩,
    ⟨"POST", "/admin/models/\x7bid\x7d/toggle", .toggleModel⟩,
    ⟨"GET", "/admin/endpoints", .listAllModelEndpoints⟩,
    ⟨"GET", "/admin/models/\x7bid\x7d/endpoints", .listModelEndpoints⟩,
    ⟨"POST", "/admin/models/\x7bid\x7d/endpoints", .createModelEndpoint⟩,
    ⟨"GET", "/admin/endpoints/\x7bid\x7d", .getModelEndpoint⟩,
    ⟨"PUT", "/admin/endpoints/\x7bid\x7d", .updateModelEndpoint⟩,
    ⟨"DELETE", "/admin/endpoints/\x7bid\x7d", .deleteModelEndpoint⟩,
    ⟨"POST", "/admin/endpoints/\x7bid\x7d/toggle", .toggleModelEndpoint⟩,
    ⟨"GET", "/admin/known-providers", .knownProviders⟩, ⟨"GET", "/admin/dashboard", .dashboard⟩,
    ⟨"GET", "/admin/usage", .usageStats⟩, ⟨"GET", "/admin/usage/\x7bkey_id\x7d", .keyUsageStats⟩,
    ⟨"GET", "/admin/config", .getConfig⟩, ⟨"PUT", "/admin/config", .updateConfig⟩,
    ⟨"GET", "/admin/config/history", .configHistory⟩,
    ⟨"POST", "/admin/config/rollback/\x7bversion\x7d", .configRollback⟩,
    ⟨"GET", "/admin/logs", .listLogs⟩, ⟨"DELETE", "/admin/logs", .deleteLogs⟩,
    ⟨"POST", "/admin/reload", .reloadConfig⟩]

/-- The routes, each with its router. -/
def routes : List (RouteGroup × Route) :=
  publicRoutes.map (.unlayered, ·) ++ apiRoutes.map (.api, ·) ++ adminRoutes.map (.admin, ·)

/-- The handler of a request; `none` where the path has a route, and the method has none. -/
def dispatch (method path : String) : Option (RouteGroup × Handler) :=
  match routes.filter (·.2.matchesPath path) with
  | [] => some (.api, .passthrough)
  | found =>
    -- a route of `GET` takes `HEAD` as well
    (found.find? fun p ↦ p.2.method == method || (p.2.method == "GET" && method == "HEAD")).map
      fun p ↦ (p.1, p.2.handler)

/-- Every handler is behind the layers of its router: those of the admin API, and no others, behind
the scope check. -/
theorem dispatch_admin {method path : String} {group : RouteGroup} {handler : Handler}
    (h : dispatch method path = some (group, handler)) :
    handler.isAdmin = true ↔ group = .admin := by
  have hroutes : ∀ p ∈ routes, p.2.handler.isAdmin = true ↔ p.1 = .admin := by decide
  rw [dispatch] at h
  split at h
  · cases h
    exact ⟨fun h ↦ (by cases h), fun h ↦ (by cases h)⟩
  · obtain ⟨p, hp, heq⟩ := Option.map_eq_some_iff.1 h
    cases heq
    exact hroutes p (List.mem_filter.1 (List.mem_of_find?_eq_some hp)).1

example : dispatch "GET" "/admin/keys/" = some (.api, .passthrough) := by decide +kernel

end Router

/-! ### Runs -/

/-- A token that the login has issued. -/
structure IssuedToken (κ : Type*) where
  token : String
  secret : κ
  issuedAt : ℕ
  username : String
  password : String

/-- A handler that has run, with the principal the layers left it, if any. -/
structure HandlerCall (κ : Type*) where
  env : BootEnv κ
  request : AuthRequest κ
  handler : Handler
  ctx : Option AuthContext

/-- The process that runs now, the tokens issued so far and the handlers that have run. -/
structure AccessRun (κ : Type*) where
  env : BootEnv κ
  auth : CombinedAuth κ
  now : ℕ
  issued : List (IssuedToken κ)
  handled : List (HandlerCall κ)

/-- Time passes; the process is started anew; someone logs in; or a request comes in. -/
inductive AccessOp (κ : Type*)
  | tick (seconds : ℕ)
  | boot (env : BootEnv κ)
  | login (username password : String)
  | request (method path : String) (request : AuthRequest κ)

namespace AccessRun

variable (jwt : JwtIssuer κ) (sha256 : String → String) (s : AccessRun κ)

/-- What `require_admin_scope` lets through. -/
def requireAdminScope : AuthOutcome → AuthOutcome
  | .next ctx =>
    if ctx.scope = .admin then .next ctx else .refuse 403 "admin scope required" none
  | outcome => outcome

/-- What the layers of a router leave a handler with: a principal, or none where there is no layer;
`none` where they answer themselves. -/
def layers (r : AuthRequest κ) : RouteGroup → Option (Option AuthContext)
  | .unlayered => some none
  | .api => principal (s.auth.middleware jwt.toJsonwebtoken sha256 (requiredRoles s.env.vars) r)
  | .admin =>
    principal (requireAdminScope
      (s.auth.middleware jwt.toJsonwebtoken sha256 (requiredRoles s.env.vars) r))
where
  /-- The principal a handler gets. -/
  principal : AuthOutcome → Option (Option AuthContext)
    | .next ctx => some (some ctx)
    | .refuse _ _ _ => none

/-- The handlers that have run after a request. -/
def handle (method path : String) (r : AuthRequest κ) : List (HandlerCall κ) :=
  match Router.dispatch method path with
  | none => s.handled
  | some (group, handler) =>
    match s.layers jwt sha256 r group with
    | none => s.handled
    | some ctx => s.handled ++ [⟨s.env, r, handler, ctx⟩]

/-- `dev_admin_login`: the tokens issued after a login. -/
def devAdminLogin (username password : String) : List (IssuedToken κ) :=
  match DevAdminLogin.fromEnv s.env.vars s.env.secret with
  | none => s.issued
  | some login =>
    if login.verify username password then
      s.issued ++ [⟨login.issue s.now jwt, s.env.secret, s.now, username, password⟩]
    else s.issued

/-- One step; a request is met at the time it comes in. -/
def step? : AccessOp κ → Option (AccessRun κ)
  | .tick seconds => some { s with now := s.now + seconds }
  | .boot env => env.boot.map fun auth ↦ { s with env, auth }
  | .login username password => some { s with issued := s.devAdminLogin jwt username password }
  | .request method path r =>
    if r.now = s.now then some { s with handled := s.handle jwt sha256 method path r } else none

/-- The runs, from a boot. -/
def runs : TransitionSystem (AccessRun κ) (AccessOp κ) :=
  .ofPartial
    (fun s ↦ s.env.boot = some s.auth ∧ s.issued = [] ∧ s.handled = [])
    (step? jwt sha256)

/-- What signatures are for: a boot draws a secret that none had before, and a token is only signed
with the secret of the boot if the login has issued it. -/
def Lawful : AccessOp κ → Prop
  | .boot env => ∀ i ∈ s.issued, i.secret ≠ env.secret
  | .request _ _ r => ∀ token ∈ r.token, ∀ claims,
    jwt.Signed token .hs256 s.env.secret claims →
      ∃ i ∈ s.issued, i.token = token ∧ i.secret = s.env.secret
  | .tick _ | .login _ _ => True

end AccessRun

/-! ### What the layers ask for -/

/-- The token of a login is live: it was issued in the same boot, for a username and a password that
the login accepts, and no longer ago than its lifetime and the leeway. -/
def LiveToken (jwt : JwtIssuer κ) (issued : List (IssuedToken κ)) (env : BootEnv κ)
    (r : AuthRequest κ) : Prop :=
  ∃ login ∈ DevAdminLogin.fromEnv env.vars env.secret, ∃ i ∈ issued,
    r.authorization = some ("Bearer " ++ i.token) ∧ i.secret = env.secret ∧
      i.token = login.issue i.issuedAt jwt ∧ login.verify i.username i.password = true ∧
      i.issuedAt ≤ r.now ∧ r.now ≤ i.issuedAt + login.ttlSecs + 30

/-- The handler ran for an admin: the anonymous one of a gateway that authenticates nobody, or one
with a credential of an admin, where a token of the login is live. -/
structure ByAdmin (jwt : JwtIssuer κ) (sha256 : String → String) (issued : List (IssuedToken κ))
    (call : HandlerCall κ) (ctx : AuthContext) : Prop where
  principal : call.ctx = some ctx
  scope : ctx.scope = .admin
  credential :
    (ctx = .anonymous ∧ (call.env.Configured → call.env.LeftOpen)) ∨ ∃ credential : Credential,
      call.env.Admits jwt.toJsonwebtoken sha256 call.request ctx credential ∧
        credential.CarriesAdmin ∧
        ∀ claims, credential = .devAdmin claims → LiveToken jwt issued call.env call.request

section Reached

variable {jwt : JwtIssuer κ} {sha256 : String → String} {issued issued' : List (IssuedToken κ)}
  {env : BootEnv κ} {r : AuthRequest κ} {call : HandlerCall κ} {ctx : AuthContext}

theorem LiveToken.mono (h : LiveToken jwt issued env r) (hsub : issued ⊆ issued') :
    LiveToken jwt issued' env r := by
  obtain ⟨login, hlogin, i, hi, hlive⟩ := h
  exact ⟨login, hlogin, i, hsub hi, hlive⟩

theorem ByAdmin.mono (h : ByAdmin jwt sha256 issued call ctx) (hsub : issued ⊆ issued') :
    ByAdmin jwt sha256 issued' call ctx := by
  refine { h with credential := ?_ }
  rcases h.credential with hopen | ⟨credential, hadmits, hcarries, hlive⟩
  · exact .inl hopen
  · exact .inr ⟨credential, hadmits, hcarries, fun claims heq ↦ (hlive claims heq).mono hsub⟩

namespace AccessRun

variable {s : AccessRun κ} {method path : String}

/-- The tokens of this boot are those of its login. -/
structure Issues (jwt : JwtIssuer κ) (s : AccessRun κ) (i : IssuedToken κ) : Prop where
  past : i.issuedAt ≤ s.now
  ours : i.secret = s.env.secret → ∃ login ∈ DevAdminLogin.fromEnv s.env.vars s.env.secret,
    i.token = login.issue i.issuedAt jwt ∧ login.verify i.username i.password = true

/-- What a run keeps. -/
structure Kept (jwt : JwtIssuer κ) (sha256 : String → String) (s : AccessRun κ) : Prop where
  booted : s.env.boot = some s.auth
  issued : ∀ i ∈ s.issued, Issues jwt s i
  handled : ∀ call ∈ s.handled, call.handler.isAdmin = true →
    ∃ ctx, ByAdmin jwt sha256 s.issued call ctx

/-- A token that a login of this boot has issued is valid no longer than it is to be. -/
theorem live_of_valid (h : Kept jwt sha256 s) (hnow : r.now = s.now)
    (hlawful : s.Lawful jwt (.request method path r)) {token : String} {claims : JwtClaims}
    (hheader : r.authorization = some ("Bearer " ++ token))
    (hvalid : AdminLogin.Valid jwt.toJsonwebtoken ⟨s.env.secret⟩ token r.now claims) :
    LiveToken jwt s.issued s.env r := by
  have htoken : r.token = some token := by
    rw [AuthRequest.token, hheader]
    exact Text.stripPrefix_eq_some.2 rfl
  obtain ⟨i, hi, rfl, hsecret⟩ := hlawful token htoken claims hvalid.1
  obtain ⟨login, hlogin, hissue, hverify⟩ := (h.issued i hi).ours hsecret
  refine ⟨login, hlogin, i, hi, hheader, hsecret, hissue, hverify, ?_, ?_⟩
  · rw [hnow]
    exact (h.issued i hi).past
  · -- the claims are those it was issued with, and their end has not passed
    have hsigned := hvalid.1
    rw [hissue, DevAdminLogin.issue, ← DevAdminLogin.secret_fromEnv hlogin] at hsigned
    obtain rfl := jwt.signed_encode.1 hsigned
    have hend : r.now ≤ (i.issuedAt + login.ttlSecs) % UInt64.size + 30 := hvalid.2.unexpired
    have hwrap := Nat.mod_le (i.issuedAt + login.ttlSecs) UInt64.size
    omega

/-- Who gets past both layers is an admin. -/
theorem byAdmin_of_layers (h : Kept jwt sha256 s) (hnow : r.now = s.now)
    (hlawful : s.Lawful jwt (.request method path r)) {handler : Handler}
    {principal : Option AuthContext} (hlayers : s.layers jwt sha256 r .admin = some principal) :
    ∃ ctx, ByAdmin jwt sha256 s.issued ⟨s.env, r, handler, principal⟩ ctx := by
  rw [layers] at hlayers
  rcases hnext : s.auth.middleware jwt.toJsonwebtoken sha256 (requiredRoles s.env.vars) r with
    ctx | ⟨status, message, audit⟩
  · rw [hnext, requireAdminScope] at hlayers
    split at hlayers
    · next hscope =>
      obtain rfl := Option.some.inj hlayers
      have hbuilt := BootEnv.built_of_boot h.booted
      refine ⟨ctx, rfl, hscope, ?_⟩
      rcases hbypass : s.auth.bypasses with - | -
      · obtain ⟨credential, hadmits⟩ := hbuilt.admits hbypass hnext
        refine .inr ⟨credential, hadmits, hadmits.admin hscope, ?_⟩
        rintro claims rfl
        obtain ⟨token, hheader, -, hvalid⟩ := hadmits.valid
        exact live_of_valid h hnow hlawful hheader hvalid
      · rw [CombinedAuth.middleware, if_pos hbypass] at hnext
        exact .inl ⟨(AuthOutcome.next.inj hnext).symm,
          fun hconfigured ↦ hbuilt.leftOpen hconfigured hbypass⟩
    · cases hlayers
  · rw [hnext] at hlayers
    cases hlayers

theorem kept_invariant (jwt : JwtIssuer κ) (sha256 : String → String) :
    ((runs jwt sha256).guard (Lawful jwt)).Invariant (Kept jwt sha256) where
  init s hs := by
    obtain ⟨hboot, hissued, hhandled⟩ := hs
    refine ⟨hboot, fun i hi ↦ ?_, fun call hcall ↦ ?_⟩
    · rw [hissued] at hi
      cases hi
    · rw [hhandled] at hcall
      cases hcall
  step s op s' h := by
    rintro ⟨hstep, hlawful⟩
    rcases op with seconds | env | ⟨username, password⟩ | ⟨method, path, r⟩
    · obtain rfl := Option.some.inj hstep
      exact ⟨h.booted, fun i hi ↦ ⟨(h.issued i hi).past.trans (Nat.le_add_right ..),
        (h.issued i hi).ours⟩, h.handled⟩
    · obtain ⟨auth, hboot, rfl⟩ := Option.map_eq_some_iff.1 hstep
      -- no token that is out carries the new secret
      exact ⟨hboot, fun i hi ↦ ⟨(h.issued i hi).past,
        fun hsecret ↦ absurd hsecret (hlawful i hi)⟩, h.handled⟩
    · obtain rfl := Option.some.inj hstep
      have hsub : s.issued ⊆ s.devAdminLogin jwt username password := by
        rw [devAdminLogin]
        split
        · exact List.Subset.refl _
        · split
          · exact List.subset_append_left _ _
          · exact List.Subset.refl _
      refine ⟨h.booted, fun i hi ↦ ?_, fun call hcall hadmin ↦ ?_⟩
      · have hnew : i ∈ s.devAdminLogin jwt username password := hi
        rw [devAdminLogin] at hnew
        split at hnew
        · exact ⟨(h.issued i hnew).past, (h.issued i hnew).ours⟩
        · next login hlogin =>
          split at hnew
          · next hverify =>
            rcases List.mem_append.1 hnew with hold | hnew
            · exact ⟨(h.issued i hold).past, (h.issued i hold).ours⟩
            · obtain rfl := List.mem_singleton.1 hnew
              exact ⟨Nat.le_refl _, fun _ ↦ ⟨login, hlogin, rfl, hverify⟩⟩
          · exact ⟨(h.issued i hnew).past, (h.issued i hnew).ours⟩
      · obtain ⟨ctx, hby⟩ := h.handled call hcall hadmin
        exact ⟨ctx, hby.mono hsub⟩
    · obtain ⟨hnow, hstep⟩ := Option.ite_none_right_eq_some.1 hstep
      obtain rfl := Option.some.inj hstep
      refine ⟨h.booted, fun i hi ↦ ⟨(h.issued i hi).past, (h.issued i hi).ours⟩,
        fun call hcall hadmin ↦ ?_⟩
      have hcall' : call ∈ s.handle jwt sha256 method path r := hcall
      rw [handle] at hcall'
      split at hcall'
      · exact h.handled call hcall' hadmin
      · next group handler hdispatch =>
        split at hcall'
        · exact h.handled call hcall' hadmin
        · next principal hlayers =>
          rcases List.mem_append.1 hcall' with hold | hnew
          · exact h.handled call hold hadmin
          · obtain rfl := List.mem_singleton.1 hnew
            obtain rfl := (Router.dispatch_admin hdispatch).1 hadmin
            exact byAdmin_of_layers h hnow hlawful hlayers

end AccessRun

end Reached

namespace UnaryToken

/-- A token that is its key, its end and its subject, the numbers in unary. -/
def write (key : ℕ) (claims : JwtClaims) : String :=
  .ofList (List.replicate key 'k' ++ '.' :: (List.replicate claims.exp 'e' ++
    '.' :: claims.sub.toList))

/-- The key and the claims of a token. -/
def read (token : String) : ℕ × JwtClaims :=
  let rest := (token.toList.dropWhile (· = 'k')).tail
  ((token.toList.takeWhile (· = 'k')).length,
    { DevAdminLogin.claims ⟨⟨.ofList (rest.dropWhile (· = 'e')).tail, ""⟩, ⟨()⟩, 0⟩ 0 with
      exp := (rest.takeWhile (· = 'e')).length })

theorem read_write (login : DevAdminLogin ℕ) (now : ℕ) :
    read (write login.secret (login.claims now)) = (login.secret, login.claims now) := by
  have hsplit (n : ℕ) (c : Char) (hc : c ≠ '.') (rest : List Char) :
      (List.replicate n c ++ '.' :: rest).takeWhile (· = c) = List.replicate n c ∧
        (List.replicate n c ++ '.' :: rest).dropWhile (· = c) = '.' :: rest := by
    have hall : ∀ x ∈ List.replicate n c, decide (x = c) = true := fun x hx ↦
      decide_eq_true (List.eq_of_mem_replicate hx)
    rw [List.takeWhile_append_of_pos hall, List.dropWhile_append_of_pos hall]
    simp [Ne.symm hc]
  simp only [read, write, String.toList_ofList, (hsplit _ 'k' (by decide) _).1,
    (hsplit _ 'k' (by decide) _).2, (hsplit _ 'e' (by decide) _).1,
    (hsplit _ 'e' (by decide) _).2, List.tail_cons, List.length_replicate, String.ofList_toList]
  rfl

/-- Issues and decodes such tokens. -/
def issuer : JwtIssuer ℕ where
  kid := fun _ ↦ none
  Signed token algorithm key claims := algorithm = .hs256 ∧ read token = (key, claims)
  decode token key validation now :=
    if validation.algorithm = .hs256 ∧ (read token).1 = key ∧
        (read token).2.iss = validation.issuer ∧ validation.audience ∈ (read token).2.aud ∧
        now ≤ (read token).2.exp + validation.leeway then some (read token).2
    else none
  decode_eq_some {token key validation now claims} := by
    rw [Option.ite_none_right_eq_some, Option.some_inj, Prod.ext_iff]
    constructor
    · rintro ⟨⟨halgorithm, hkey, hissuer, haudience, hend⟩, rfl⟩
      exact ⟨⟨halgorithm, hkey, rfl⟩, hissuer, haudience, hend, fun _ nbf hnbf ↦ by cases hnbf⟩
    · rintro ⟨⟨halgorithm, hkey, rfl⟩, haccepts⟩
      exact ⟨⟨halgorithm, hkey, haccepts.issuer, haccepts.audience, haccepts.unexpired⟩, rfl⟩
  encode := write
  signed_encode {login now claims} := by
    rw [read_write, Prod.mk.injEq]
    exact ⟨fun h ↦ h.2.2.symm, fun h ↦ ⟨rfl, rfl, h.symm⟩⟩

end UnaryToken

namespace AccessRun

/-- A login that is configured, for five seconds at a time. -/
def loginEnv : BootEnv ℕ where
  vars := fun name ↦
    if name = "DEV_ADMIN_PASSWORD" then some "hunter2"
    else if name = "DEV_ADMIN_TOKEN_TTL_SECS" then some "5"
    else none
  config := .default
  discover := fun _ _ _ ↦ none
  secret := 2
  store := .memory .empty .empty

/-- The process that is booted with it. -/
def loggedOut : AccessRun ℕ where
  env := loginEnv
  auth := ⟨⟨loginEnv.store, none⟩, none, some ⟨2⟩⟩
  now := 0
  issued := []
  handled := []

/-- Someone has logged in. -/
def loggedIn : AccessRun ℕ :=
  { loggedOut with issued := loggedOut.devAdminLogin UnaryToken.issuer "admin" "hunter2" }

/-- Three seconds later, the keys are asked for with the token. -/
def askForKeys : AuthRequest ℕ :=
  ⟨some "Bearer kk.eeeee.admin", none, loginEnv.store, [], 3⟩

theorem loggedIn_reachable :
    ((runs UnaryToken.issuer id).guard (Lawful UnaryToken.issuer)).Reachable loggedIn :=
  .step (l := .login "admin" "hunter2") (.init (s := loggedOut) ⟨rfl, rfl, rfl⟩) ⟨rfl, trivial⟩

end AccessRun

end Himadri
