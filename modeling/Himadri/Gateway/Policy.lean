import Himadri.Core.Rbac
import Himadri.Core.Request
import Himadri.Core.Scope
import Himadri.Core.Text
import Himadri.Gateway.State

/-!
# The guards in front of a request

`policy.rs`: rate limits, token budgets, the rules of the organisation and the team, and role-based
access. What the rate limiter's buckets answer is an argument (`LimiterAnswers`), and so is
`str::to_lowercase`, whose Unicode tables nothing here depends on.
-/

namespace Himadri

/-- What the buckets of the rate limiter answer to one request. -/
structure LimiterAnswers where
  checkGlobal : Bool
  checkKey : (keyId : String) → (rate burst : Option ℕ) → Bool
  checkOrg : (orgId : String) → (rate burst : Option ℕ) → Bool

/-- Buckets that have a token for everyone. -/
def LimiterAnswers.open : LimiterAnswers := ⟨true, fun _ _ _ ↦ true, fun _ _ _ ↦ true⟩

/-- The roles of a principal and whether it is an admin, as every role check reads them. -/
def rolesOf : Option AuthContext → List String × Bool
  | some ctx => (ctx.roles, decide (ctx.scope = .admin))
  | none => ([], false)

/-- Refuse with the error, if there is one. -/
def refuseWith : Option GatewayError → Except GatewayError Unit
  | some e => .error e
  | none => .ok ()

@[simp] theorem refuseWith_eq_ok {e : Option GatewayError} : refuseWith e = .ok () ↔ e = none := by
  cases e <;> simp [refuseWith]

/-! ### Rate limits and token budgets -/

section Limits

variable (limiter : LimiterAnswers) (config : Config) (ctx : AuthContext)

/-- The bucket of the key. -/
def admitsKey : Bool :=
  match ctx.keyId with
  | none => true
  | some keyId =>
    limiter.checkKey keyId (ctx.rateLimitOverride.bind (·.requestsPerSecond))
      (ctx.rateLimitOverride.bind (·.burstSize))

/-- The bucket of the organisation, where its section is enabled. -/
def admitsOrg : Bool :=
  match ctx.orgId with
  | none => true
  | some orgId =>
    match (config.orgs.get orgId).bind (·.rateLimit) with
    | none => true
    | some limit =>
      !limit.enabled ||
        limiter.checkOrg orgId (some limit.requestsPerSecond) (some limit.burstSize)

/-- `Gateway::check_rate_limits`. -/
def checkRateLimits (auth : Option AuthContext) : Except GatewayError Unit :=
  if !config.rateLimit.enabled then .ok ()
  else if !limiter.checkGlobal then .error (.rateLimited 1)
  else
    match auth with
    | none => .ok ()
    | some ctx =>
      if admitsKey limiter ctx && admitsOrg limiter config ctx then .ok ()
      else .error (.rateLimited 1)

/-- The error of a scope whose budget the request exceeds. -/
def Scope.budgetRefusal (scope : Scope) (requested : ℕ) : Option GatewayError :=
  match scope.tokenBudget.bind (·.maxTokensPerRequest) with
  | none => none
  | some max =>
    if max < requested then
      some (.forbidden ("max_tokens " ++ toString requested ++ " exceeds " ++ scope.kind.asStr ++
        " limit of " ++ toString max))
    else none

/-- `Gateway::check_token_budgets`. -/
def checkTokenBudgets (auth : Option AuthContext) (request : ChatCompletionRequest) :
    Except GatewayError Unit :=
  match request.maxTokens, auth with
  | some requested, some ctx =>
    refuseWith ((config.scopes ctx.orgId ctx.teamId).findSome? (·.budgetRefusal requested))
  | _, _ => .ok ()

end Limits

/-! ### The rules of the organisation and the team -/

section Guardrails

variable (toLowercase : String → String) (config : Config)

/-- The error of a scope whose lists refuse the model. -/
def Scope.modelRefusal (scope : Scope) (model : String) : Option GatewayError :=
  if scope.allowedModels.any (!·.contains model) then
    some (.forbidden ("Model '" ++ model ++ "' not allowed for " ++ scope.kind.asStr ++ " '" ++
      scope.id ++ "'"))
  else if scope.blockedModels.any (·.contains model) then
    some (.forbidden ("Model '" ++ model ++ "' blocked for " ++ scope.kind.asStr ++ " '" ++
      scope.id ++ "'"))
  else none

/-- The message bodies the blocked words are looked for in. -/
def loweredMessages (request : ChatCompletionRequest) : List String :=
  request.messages.filterMap fun m ↦ m.content.map fun content ↦ toLowercase content.flatText

/-- The first blocked word found, messages first. -/
def Scope.blockedWord (scope : Scope) (request : ChatCompletionRequest) : Option String :=
  (loweredMessages toLowercase request).findSome? fun text ↦
    (scope.guardrails.blockedWords.map toLowercase).find? (Text.contains text ·)

/-- The error of a scope whose token guardrail the request exceeds. -/
def Scope.maxTokensRefusal (scope : Scope) (request : ChatCompletionRequest) :
    Option GatewayError :=
  match scope.guardrails.maxTokensPerRequest, request.maxTokens with
  | some max, some requested =>
    if max < requested then
      some (.forbidden ("max_tokens " ++ toString requested ++ " exceeds " ++ scope.kind.asStr ++
        " guardrail limit of " ++ toString max))
    else none
  | _, _ => none

/-- The error of a scope whose guardrails refuse the content. -/
def Scope.contentRefusal (scope : Scope) (request : ChatCompletionRequest) :
    Option GatewayError :=
  if scope.guardrails.enabled then
    match scope.blockedWord toLowercase request with
    | some word => some (.forbidden ("Blocked word '" ++ word ++ "' detected in request"))
    | none => scope.maxTokensRefusal request
  else none

/-- The error of the first scope of the principal whose lists refuse the model. -/
def modelRefusal (auth : Option AuthContext) (model : String) : Option GatewayError :=
  auth.bind fun ctx ↦ (config.scopes ctx.orgId ctx.teamId).findSome? (·.modelRefusal model)

/-- The error of the first scope of the principal whose guardrails refuse the content. -/
def contentRefusal (auth : Option AuthContext) (request : ChatCompletionRequest) :
    Option GatewayError :=
  auth.bind fun ctx ↦
    (config.scopes ctx.orgId ctx.teamId).findSome? (·.contentRefusal toLowercase request)

/-- `Gateway::check_org_guardrails`: the model lists of every scope, then their guardrails. -/
def checkOrgGuardrails (auth : Option AuthContext) (request : ChatCompletionRequest) :
    Except GatewayError Unit :=
  refuseWith
    ((modelRefusal config auth request.model).or (contentRefusal toLowercase config auth request))

variable {toLowercase config} in
theorem checkOrgGuardrails_eq_ok {auth : Option AuthContext} {request : ChatCompletionRequest} :
    checkOrgGuardrails toLowercase config auth request = .ok () ↔
      modelRefusal config auth request.model = none ∧
        contentRefusal toLowercase config auth request = none := by
  rw [checkOrgGuardrails, refuseWith_eq_ok, Option.or_eq_none_iff]

end Guardrails

/-! ### Roles -/

section Roles

variable (config : Config) (auth : Option AuthContext)

/-- `Gateway::check_rbac_model`. -/
def checkRbacModel (model : String) : Except GatewayError Unit :=
  if !config.rbac.enabled then .ok ()
  else
    match config.rbac.checkModel (rolesOf auth).1 (rolesOf auth).2 model with
    | .ok () => .ok ()
    | .error d => .error (.forbidden d.display)

/-- The roles of the principal grant the provider: `check_provider` passes. -/
def grants (provider : String) : Bool :=
  (config.rbac.checkProvider (rolesOf auth).1 (rolesOf auth).2 provider).isOk

/-- The last denial `filter_targets_by_rbac` sees. -/
def lastDenial (ordered : List Target) : Option RbacDenial :=
  ordered.foldl
    (fun last t ↦
      match config.rbac.checkProvider (rolesOf auth).1 (rolesOf auth).2 t.provider with
      | .ok () => last
      | .error d => some d)
    none

/-- `Gateway::filter_targets_by_rbac`. -/
def filterTargetsByRbac (ordered : List Target) : Except GatewayError (List Target) :=
  if !config.rbac.enabled then .ok ordered
  else if (rolesOf auth).2 then .ok ordered
  else
    match ordered.filter (grants config auth ·.provider) with
    | [] =>
      .error (.forbidden (((lastDenial config auth ordered).map RbacDenial.display).getD
        "no permitted provider for your role"))
    | allowed => .ok allowed

variable {config auth}

theorem grants_of_disabled {provider : String} (h : config.rbac.enabled = false) :
    grants config auth provider := by
  rw [grants, RbacConfig.checkProvider, RbacConfig.checkDimension_of_disabled h]
  rfl

theorem grants_of_admin {provider : String} (h : (rolesOf auth).2) :
    grants config auth provider := by
  rw [grants, h, RbacConfig.checkProvider, RbacConfig.checkDimension_of_admin]
  rfl

/-- Where the filter is off, the roles grant everything. -/
theorem filter_grants_of_off {ordered : List Target}
    (h : config.rbac.enabled = false ∨ (rolesOf auth).2 = true) :
    ordered.filter (grants config auth ·.provider) = ordered := by
  rw [List.filter_eq_self]
  intro t _
  rcases h with hdisabled | hadmin
  · exact grants_of_disabled hdisabled
  · exact grants_of_admin hadmin

/-- What passes the filter is what the roles grant, in its order; only an empty list passes as an
empty list. -/
theorem filterTargetsByRbac_eq_ok {ordered allowed : List Target} :
    filterTargetsByRbac config auth ordered = .ok allowed ↔
      allowed = ordered.filter (grants config auth ·.provider) ∧
        (config.rbac.enabled = true → (rolesOf auth).2 = false → allowed ≠ []) := by
  unfold filterTargetsByRbac
  split
  -- off for lack of RBAC, off for an admin, or on
  · next hoff =>
    have hdisabled : config.rbac.enabled = false := by simpa using hoff
    rw [filter_grants_of_off (.inl hdisabled), Except.ok.injEq, eq_comm, hdisabled]
    exact (and_iff_left fun h ↦ (by cases h)).symm
  · split
    · next hadmin =>
      rw [filter_grants_of_off (.inr hadmin), Except.ok.injEq, eq_comm, hadmin]
      exact (and_iff_left fun _ h ↦ (by cases h)).symm
    · next hon hadmin =>
      split
      · next hnil =>
        rw [hnil]
        refine ⟨fun h ↦ (by cases h), fun h ↦ absurd h.1 (h.2 ?_ ?_)⟩
        · simpa using hon
        · simpa using hadmin
      · next hne =>
        rw [Except.ok.injEq, eq_comm]
        refine (and_iff_left_of_imp fun h _ _ hnil ↦ hne ?_).symm
        rw [← h, hnil]

theorem filterTargetsByRbac_subset {ordered allowed : List Target}
    (h : filterTargetsByRbac config auth ordered = .ok allowed) :
    ∀ t ∈ allowed, t ∈ ordered ∧ grants config auth t.provider = true := by
  intro t ht
  rw [(filterTargetsByRbac_eq_ok.1 h).1] at ht
  exact List.mem_filter.1 ht

/-- The filter passes nothing on only if it is given nothing. -/
theorem ne_nil_of_filterTargetsByRbac {ordered allowed : List Target} (hne : ordered ≠ [])
    (h : filterTargetsByRbac config auth ordered = .ok allowed) : allowed ≠ [] := by
  obtain ⟨rfl, hon⟩ := filterTargetsByRbac_eq_ok.1 h
  by_cases hoff : config.rbac.enabled = false ∨ (rolesOf auth).2 = true
  · rwa [filter_grants_of_off hoff]
  · rw [not_or, Bool.not_eq_false, Bool.not_eq_true] at hoff
    exact hon hoff.1 hoff.2

end Roles

end Himadri
