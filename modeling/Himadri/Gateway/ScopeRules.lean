import Himadri.Gateway.Policy

/-!
# What the scopes of a principal accept

The rules of one scope as a property of the request (`Scope.Accepts`), and the two checks that walk
the chain of scopes as their conjunction (`accepted_iff`). So a scope can only add to what the others
refuse: `Scope.Narrows` compares the rules of two scopes, and a narrower team section accepts less,
for every principal.

Words are looked for in lowercase, the text's and the word's.
-/

namespace Himadri

/-- The cap of a scope's token budget. -/
def Scope.budgetCap (scope : Scope) : Option ℕ := scope.tokenBudget.bind (·.maxTokensPerRequest)

/-- The scope alone accepts the request. -/
structure Scope.Accepts (toLowercase : String → String) (scope : Scope)
    (request : ChatCompletionRequest) : Prop where
  allowed : ∀ list ∈ scope.allowedModels, request.model ∈ list
  unblocked : ∀ list ∈ scope.blockedModels, request.model ∉ list
  budget : ∀ max ∈ scope.budgetCap, ∀ requested ∈ request.maxTokens, requested ≤ max
  cap : scope.guardrails.enabled = true → ∀ max ∈ scope.guardrails.maxTokensPerRequest,
    ∀ requested ∈ request.maxTokens, requested ≤ max
  words : scope.guardrails.enabled = true → ∀ m ∈ request.messages, ∀ content ∈ m.content,
    ∀ word ∈ scope.guardrails.blockedWords,
      ¬(toLowercase word).toList <:+: (toLowercase content.flatText).toList

/-- The rules of the first scope hold in the second, or stricter ones do. -/
structure Scope.Narrows (scope scope' : Scope) : Prop where
  allowed : ∀ list ∈ scope.allowedModels, ∃ list' ∈ scope'.allowedModels, list' ⊆ list
  blocked : ∀ list ∈ scope.blockedModels, ∃ list' ∈ scope'.blockedModels, list ⊆ list'
  budget : ∀ max ∈ scope.budgetCap, ∃ max' ∈ scope'.budgetCap, max' ≤ max
  enabled : scope.guardrails.enabled = true → scope'.guardrails.enabled = true
  cap : scope.guardrails.enabled = true → ∀ max ∈ scope.guardrails.maxTokensPerRequest,
    ∃ max' ∈ scope'.guardrails.maxTokensPerRequest, max' ≤ max
  words : scope.guardrails.enabled = true →
    scope.guardrails.blockedWords ⊆ scope'.guardrails.blockedWords

section Scope

variable {toLowercase : String → String} {scope scope' : Scope} {request : ChatCompletionRequest}

/-- A cap that is checked only where the request names a number. -/
theorem budgetRefusal_eq_none {requested : ℕ} :
    scope.budgetRefusal requested = none ↔ ∀ max ∈ scope.budgetCap, requested ≤ max := by
  rw [Scope.budgetRefusal, Scope.budgetCap]
  rcases scope.tokenBudget.bind (·.maxTokensPerRequest) with - | max
  · simp
  · simp

theorem Scope.modelRefusal_eq_none {model : String} : scope.modelRefusal model = none ↔
    (∀ list ∈ scope.allowedModels, model ∈ list) ∧
      ∀ list ∈ scope.blockedModels, model ∉ list := by
  have hallowed : scope.allowedModels.any (!·.contains model) = false ↔
      ∀ list ∈ scope.allowedModels, model ∈ list := by
    rcases scope.allowedModels with - | allowed <;> simp
  have hblocked : scope.blockedModels.any (·.contains model) = false ↔
      ∀ list ∈ scope.blockedModels, model ∉ list := by
    rcases scope.blockedModels with - | blocked <;> simp
  rw [Scope.modelRefusal, ← hallowed, ← hblocked]
  split_ifs with hrefused hfound
  · exact iff_of_false (fun h ↦ by cases h) fun h ↦ Bool.false_ne_true (h.1.symm.trans hrefused)
  · exact iff_of_false (fun h ↦ by cases h) fun h ↦ Bool.false_ne_true (h.2.symm.trans hfound)
  · exact iff_of_true rfl ⟨Bool.eq_false_iff.2 hrefused, Bool.eq_false_iff.2 hfound⟩

theorem Scope.blockedWord_eq_none : scope.blockedWord toLowercase request = none ↔
    ∀ m ∈ request.messages, ∀ content ∈ m.content, ∀ word ∈ scope.guardrails.blockedWords,
      ¬(toLowercase word).toList <:+: (toLowercase content.flatText).toList := by
  simp only [Scope.blockedWord, loweredMessages, List.findSome?_eq_none_iff, List.find?_eq_none,
    List.mem_filterMap, List.mem_map, Option.map_eq_some_iff, Text.contains, decide_eq_true_eq]
  constructor
  · intro h m hm content hcontent word hword
    exact h _ ⟨m, hm, content, hcontent, rfl⟩ _ ⟨word, hword, rfl⟩
  · rintro h _ ⟨m, hm, content, hcontent, rfl⟩ _ ⟨word, hword, rfl⟩
    exact h m hm content hcontent word hword

theorem Scope.maxTokensRefusal_eq_none : scope.maxTokensRefusal request = none ↔
    ∀ max ∈ scope.guardrails.maxTokensPerRequest, ∀ requested ∈ request.maxTokens,
      requested ≤ max := by
  rw [Scope.maxTokensRefusal]
  rcases scope.guardrails.maxTokensPerRequest with - | max <;>
    rcases request.maxTokens with - | requested <;> simp

theorem Scope.contentRefusal_eq_none : scope.contentRefusal toLowercase request = none ↔
    (scope.guardrails.enabled = true → scope.blockedWord toLowercase request = none) ∧
      (scope.guardrails.enabled = true → scope.maxTokensRefusal request = none) := by
  rw [Scope.contentRefusal]
  split
  · next henabled =>
    rcases hword : scope.blockedWord toLowercase request with - | word
    · simp [henabled]
    · simp [henabled]
  · next hdisabled => exact iff_of_true rfl ⟨fun h ↦ absurd h hdisabled, fun h ↦ absurd h hdisabled⟩

/-- The checks find nothing to refuse in a scope that accepts. -/
theorem Scope.accepts_iff : scope.Accepts toLowercase request ↔
    (∀ requested ∈ request.maxTokens, scope.budgetRefusal requested = none) ∧
      scope.modelRefusal request.model = none ∧
        scope.contentRefusal toLowercase request = none := by
  rw [Scope.modelRefusal_eq_none, Scope.contentRefusal_eq_none, Scope.blockedWord_eq_none,
    Scope.maxTokensRefusal_eq_none]
  constructor
  · intro h
    exact ⟨fun requested hr ↦ budgetRefusal_eq_none.2 fun max hmax ↦ h.budget max hmax requested hr,
      ⟨h.allowed, h.unblocked⟩, h.words, h.cap⟩
  · rintro ⟨hbudget, ⟨hallowed, hunblocked⟩, hwords, hcap⟩
    exact ⟨hallowed, hunblocked, fun max hmax requested hr ↦
      budgetRefusal_eq_none.1 (hbudget requested hr) max hmax, hcap, hwords⟩

/-- What a narrower scope accepts the scope accepts. -/
theorem Scope.Narrows.accepts (h : scope.Narrows scope')
    (haccepts : scope'.Accepts toLowercase request) : scope.Accepts toLowercase request where
  allowed list hlist := by
    obtain ⟨list', hlist', hsub⟩ := h.allowed list hlist
    exact hsub (haccepts.allowed list' hlist')
  unblocked list hlist hmem := by
    obtain ⟨list', hlist', hsub⟩ := h.blocked list hlist
    exact haccepts.unblocked list' hlist' (hsub hmem)
  budget max hmax requested hr := by
    obtain ⟨max', hmax', hle⟩ := h.budget max hmax
    exact (haccepts.budget max' hmax' requested hr).trans hle
  cap henabled max hmax requested hr := by
    obtain ⟨max', hmax', hle⟩ := h.cap henabled max hmax
    exact (haccepts.cap (h.enabled henabled) max' hmax' requested hr).trans hle
  words henabled m hm content hcontent word hword :=
    haccepts.words (h.enabled henabled) m hm content hcontent word (h.words henabled hword)

end Scope

/-! ### The chain -/

/-- The part of `Gateway::prepare_request` that is the organisation's and the team's accepts. -/
def ScopesAccept (toLowercase : String → String) (config : Config) (auth : Option AuthContext)
    (request : ChatCompletionRequest) : Prop :=
  checkTokenBudgets config auth request = .ok () ∧
    checkOrgGuardrails toLowercase config auth request = .ok ()

/-- The organisation of the principal accepts, if it is configured, and so does its team, if that
is configured under it. -/
def EachAccepts (toLowercase : String → String) (config : Config) (auth : Option AuthContext)
    (request : ChatCompletionRequest) : Prop :=
  ∀ ctx ∈ auth, ∀ orgId ∈ ctx.orgId, ∀ org ∈ config.orgs.get orgId,
    (org.scope orgId).Accepts toLowercase request ∧
      ∀ teamId ∈ ctx.teamId, ∀ team ∈ org.teams.get teamId,
        (team.scope teamId).Accepts toLowercase request

section Chain

variable {toLowercase : String → String} {config : Config} {auth : Option AuthContext}
  {request : ChatCompletionRequest}

theorem forall_mem_scopes {orgId teamId : Option String} {P : Scope → Prop} :
    (∀ scope ∈ config.scopes orgId teamId, P scope) ↔
      ∀ org ∈ orgId, ∀ section' ∈ config.orgs.get org, P (section'.scope org) ∧
        ∀ team ∈ teamId, ∀ teamSection ∈ section'.teams.get team, P (teamSection.scope team) := by
  unfold Config.scopes
  rcases orgId with - | id
  · simp
  · rcases horg : config.orgs.get id with - | org
    · simp [horg]
    · rcases teamId with - | teamId
      · simp [horg]
      · simp [horg]

theorem checkTokenBudgets_eq_ok : checkTokenBudgets config auth request = .ok () ↔
    ∀ ctx ∈ auth, ∀ scope ∈ config.scopes ctx.orgId ctx.teamId,
      ∀ requested ∈ request.maxTokens, scope.budgetRefusal requested = none := by
  unfold checkTokenBudgets
  rcases request.maxTokens with - | requested
  · simp
  · rcases auth with - | ctx
    · simp
    · simp [List.findSome?_eq_none_iff]

/-- The two checks accept what each scope of the principal accepts. -/
theorem scopesAccept_iff : ScopesAccept toLowercase config auth request ↔
    EachAccepts toLowercase config auth request := by
  have hchecks : ScopesAccept toLowercase config auth request ↔
      ∀ ctx ∈ auth, ∀ scope ∈ config.scopes ctx.orgId ctx.teamId,
        scope.Accepts toLowercase request := by
    rw [ScopesAccept, checkTokenBudgets_eq_ok, checkOrgGuardrails_eq_ok, modelRefusal,
      contentRefusal]
    rcases auth with - | ctx
    · simp
    · simp only [Option.mem_def, Option.some.injEq, forall_eq', Option.bind_some,
        List.findSome?_eq_none_iff, Scope.accepts_iff, forall_and]
  rw [hchecks, EachAccepts]
  exact forall₂_congr fun ctx _ ↦ forall_mem_scopes

end Chain

/-! ### Changing a section -/

/-- The team's section under the organisation's is this one. -/
def OrgConfig.setTeam (org : OrgConfig) (teamId : String) (team : TeamConfig) : OrgConfig :=
  { org with teams := org.teams.insert teamId team }

/-- The organisation's section is this one. -/
def Config.setOrg (config : Config) (orgId : String) (org : OrgConfig) : Config :=
  { config with orgs := config.orgs.insert orgId org }

/-- The section with its guardrails on or off. -/
def OrgConfig.setEnabled (org : OrgConfig) (enabled : Bool) : OrgConfig :=
  { org with guardrails := { org.guardrails with enabled } }

/-- The section with its guardrails on or off. -/
def TeamConfig.setEnabled (team : TeamConfig) (enabled : Bool) : TeamConfig :=
  { team with guardrails := { team.guardrails with enabled } }

section Sections

variable {toLowercase : String → String} {config : Config} {auth : Option AuthContext}
  {request : ChatCompletionRequest} {orgId teamId : String} {org : OrgConfig} {team : TeamConfig}

/-- What is accepted with a team's section added, or with a narrower one in its place, was accepted
before. -/
theorem EachAccepts.of_setTeam (horg : config.orgs.get orgId = some org)
    (hteam : ∀ old ∈ org.teams.get teamId, (old.scope teamId).Narrows (team.scope teamId))
    (h : EachAccepts toLowercase (config.setOrg orgId (org.setTeam teamId team)) auth request) :
    EachAccepts toLowercase config auth request := by
  intro ctx hctx id hid org' horg'
  rcases eq_or_ne id orgId with rfl | hne
  · obtain rfl := Option.some.inj (horg.symm.trans horg')
    obtain ⟨haccepts, hteams⟩ := h ctx hctx id hid _ (KeyMap.get_insert_self ..)
    refine ⟨haccepts, fun tid htid old hold ↦ ?_⟩
    rcases eq_or_ne tid teamId with rfl | hne
    · exact (hteam old hold).accepts (hteams tid htid team (KeyMap.get_insert_self ..))
    · exact hteams tid htid old ((KeyMap.get_insert_of_ne hne).trans hold)
  · exact h ctx hctx id hid org' ((KeyMap.get_insert_of_ne hne).trans horg')

/-- What the principal of a team is held to. -/
theorem eachAccepts_of_team {ctx : AuthContext} (horgId : ctx.orgId = some orgId)
    (horg : config.orgs.get orgId = some org) (hteamId : ctx.teamId = some teamId)
    (hteam : org.teams.get teamId = some team) :
    EachAccepts toLowercase config (some ctx) request ↔
      (org.scope orgId).Accepts toLowercase request ∧
        (team.scope teamId).Accepts toLowercase request := by
  simp [EachAccepts, horgId, horg, hteamId, hteam]

end Sections

end Himadri
