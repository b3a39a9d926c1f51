import Himadri.Gateway.ChoiceRedaction
import Himadri.Gateway.Record
import Himadri.Plugins.Budget
import Himadri.Plugins.PiiRequest
import Himadri.Plugins.PiiScopes
import Himadri.Plugins.RateLimit

/-!
# The wired plugins

`wire/plugins.rs` composes the plugins of the gateway from the settings of the environment: the PII
guardrail first, then the word filter, the cap on `max_tokens`, the request logger, the budget and
the rate limit. The manager is built here for one state of the stores behind it.

None but the first changes the context of a request (`Plugin.Observes`), so that all of them judge
what the first leaves, and a request passes exactly when each of them lets that pass
(`runBefore_build`). What a provider is asked is therefore judged by all of them
(`dispatched_admitted`).
-/

namespace Himadri

/-! ### The stateless plugins -/

/-- `WordFilterPlugin`. -/
structure WordFilterPlugin where
  blockedWords : List String

namespace WordFilterPlugin

/-- `WordFilterPlugin::new`. -/
def new (toLowercase : String → String) (blockedWords : List String) : WordFilterPlugin :=
  ⟨blockedWords.map toLowercase⟩

variable (plugin : WordFilterPlugin) (toLowercase : String → String)

/-- The first blocked word of a request, messages first. -/
def detects (request : ChatCompletionRequest) : Option String :=
  (loweredMessages toLowercase request).findSome? fun text ↦
    plugin.blockedWords.find? (Text.contains text ·)

/-- The plugin as the manager runs it. -/
def toPlugin : Plugin where
  name := "word-filter"
  stage := .beforeRequest
  alsoAfterRequest := false
  execute ctx :=
    (ctx,
      match plugin.detects toLowercase ctx.request with
      | some word =>
        .error (.rejected "word-filter" ("Blocked word detected: " ++ word) .badRequest)
      | none => .ok ())

end WordFilterPlugin

/-- `MaxTokenPlugin`. -/
structure MaxTokenPlugin where
  maxTokens : ℕ

/-- The plugin as the manager runs it. -/
def MaxTokenPlugin.toPlugin (plugin : MaxTokenPlugin) : Plugin where
  name := "max-token"
  stage := .beforeRequest
  alsoAfterRequest := false
  execute ctx :=
    (ctx,
      match ctx.request.maxTokens with
      | some maxTokens =>
        if plugin.maxTokens < maxTokens then
          .error (.rejected "max-token" ("max_tokens " ++ toString maxTokens ++
            " exceeds limit of " ++ toString plugin.maxTokens) .badRequest)
        else .ok ()
      | none => .ok ())

/-- `RequestLoggerPlugin`; what it logs is read by nothing. -/
def requestLogger : Plugin where
  name := "request-logger"
  stage := .afterRequest
  alsoAfterRequest := false
  execute ctx := (ctx, .ok ())

/-- The PII guardrail as the manager runs it. -/
def PiiGuardrailPlugin.toPlugin (plugin : PiiGuardrailPlugin) : Plugin where
  name := "pii-guardrail"
  stage := .beforeRequest
  alsoAfterRequest := false
  execute := plugin.execute

/-- The rate limit as the manager runs it, for one state of its counters. -/
def RateLimitPlugin.toPlugin (plugin : RateLimitPlugin) (state : LimiterState) (env : LimiterEnv) :
    Plugin where
  name := "rate-limit"
  stage := .beforeRequest
  alsoAfterRequest := false
  execute ctx := (ctx, (plugin.execute state env ctx).2)

/-! ### Settings -/

/-- `CacheSettings`. -/
structure CacheSettings where
  ttlSecs : ℕ
  maxEntries : ℕ

/-- `PluginSettings`. -/
structure PluginSettings where
  wordFilter : List String
  maxTokensLimit : Option ℕ
  budgetSpendLimitUsd : Option ℚ
  budgetInputPerM : Option ℚ
  budgetOutputPerM : Option ℚ
  rateLimitKeyRpm : Option ℕ
  rateLimitIpRpm : Option ℕ
  cache : Option CacheSettings
  piiDefaults : Option PiiGuardrailSettings
  piiResponseDefaults : Option PiiResponseSettings

/-- What the plugins are built from besides: the engine or the error of building it, the texts it
panics on, the limit of what it scans inline, `str::to_lowercase` and the hash of the shards. -/
structure PluginParts where
  engine : Except PiiError PiiEngine
  panics : String → Option String
  inlineLimitBytes : ℕ
  toLowercase : String → String
  hash : String → ℕ

/-- The states of the stores that the plugins of a request read, and what it meets there. -/
structure PluginStores where
  spend : SpendStore
  spendEnv : SpendEnv
  limiter : LimiterState
  limiterEnv : LimiterEnv

/-- `WiredPlugins`. -/
structure WiredPlugins where
  manager : PluginManager
  responseCache : Option CacheSettings

/-- `config_mentions_pii`. -/
def ConfigMentionsPii (config : Config) : Prop :=
  config.pii.enabled = true ∨ ∃ id org, config.orgs.get id = some org ∧
    (org.guardrails.pii.isSome ∨
      ∃ teamId team, org.teams.get teamId = some team ∧ team.guardrails.pii.isSome)

/-- `config_mentions_pii_response`. -/
def ConfigMentionsPiiResponse (config : Config) : Prop :=
  config.pii.responseMode ≠ .off ∨ ∃ id org, config.orgs.get id = some org ∧
    ((∃ pii ∈ org.guardrails.pii, pii.responseMode ≠ .off) ∨
      ∃ teamId team, org.teams.get teamId = some team ∧
        ∃ pii ∈ team.guardrails.pii, pii.responseMode ≠ .off)

namespace PluginSettings

variable (settings : PluginSettings)

/-- The operator has configured a guardrail. -/
def Configured (config : Config) : Prop :=
  settings.piiDefaults.isSome ∨ settings.piiResponseDefaults.isSome ∨ ConfigMentionsPii config ∨
    ConfigMentionsPiiResponse config

/-- The configuration the budget plugin is built with. -/
def budgetConfig : BudgetConfig where
  spendLimitUsd := some (settings.budgetSpendLimitUsd.getD 0)
  inputPerMTokens := settings.budgetInputPerM
  outputPerMTokens := settings.budgetOutputPerM
  maxKeys := none

/-- The budget plugin, where it is asked for and its configuration is accepted. -/
def budgetPlugin : Option BudgetPlugin :=
  if settings.budgetSpendLimitUsd.isSome || settings.budgetInputPerM.isSome ||
      settings.budgetOutputPerM.isSome then
    (BudgetPlugin.new settings.budgetConfig).toOption.map Prod.fst
  else none

/-- The rate-limit plugin, where it is asked for. -/
def rateLimitPlugin (hash : String → ℕ) : Option RateLimitPlugin :=
  if settings.rateLimitKeyRpm.isSome || settings.rateLimitIpRpm.isSome then
    some (.new
      { RateLimitPlugin.RateLimitConfig.default with
        keyRpm := settings.rateLimitKeyRpm
        ipRpm := settings.rateLimitIpRpm } hash)
  else none

/-- The PII guardrail on requests, under the configuration that is live. -/
def piiPlugin (parts : PluginParts) (live : Config) (engine : PiiEngine) : PiiGuardrailPlugin :=
  .withConfig engine settings.piiDefaults live parts.inlineLimitBytes

/-- The PII guardrail on responses. -/
def piiResponse (parts : PluginParts) (live : Config) (engine : PiiEngine) :
    PiiResponseGuardrail :=
  .withConfig engine parts.panics settings.piiResponseDefaults live parts.inlineLimitBytes

/-- The guardrails, first of all; a process that was asked for them does not start without. -/
def registerPii (parts : PluginParts) (boot live : Config) [Decidable (settings.Configured boot)]
    (manager : PluginManager) : Option PluginManager :=
  match parts.engine with
  | .ok engine =>
    let manager := manager.register (settings.piiPlugin parts live engine).toPlugin
    some { manager with
      responseGuardrails :=
        manager.responseGuardrails ++ [(settings.piiResponse parts live engine).guardrail] }
  | .error _ => if settings.Configured boot then none else some manager

/-- `build`, with the guardrails compiled in. -/
def build (parts : PluginParts) (boot live : Config) [Decidable (settings.Configured boot)]
    (stores : PluginStores) : Option WiredPlugins :=
  (settings.registerPii parts boot live .new).map fun manager ↦
    let manager :=
      if settings.wordFilter.isEmpty then manager
      else manager.register ((WordFilterPlugin.new parts.toLowercase settings.wordFilter).toPlugin
        parts.toLowercase)
    let manager :=
      match settings.maxTokensLimit with
      | some limit => manager.register (MaxTokenPlugin.toPlugin ⟨limit⟩)
      | none => manager
    let manager := manager.register requestLogger
    let manager :=
      match settings.budgetPlugin with
      | some plugin => manager.register (plugin.toPlugin stores.spend stores.spendEnv)
      | none => manager
    let manager :=
      match settings.rateLimitPlugin parts.hash with
      | some plugin => manager.register (plugin.toPlugin stores.limiter stores.limiterEnv)
      | none => manager
    ⟨manager, settings.cache⟩

end PluginSettings

/-! ### Plugins that judge -/

/-- The plugin leaves every context as it is. -/
def Plugin.Observes (p : Plugin) : Prop := ∀ ctx, (p.execute ctx).1 = ctx

theorem runPlugins_of_observes {ps : List Plugin} (h : ∀ p ∈ ps, p.Observes)
    (ctx : PluginContext) :
    (runPlugins ps ctx).1 = ctx ∧
      ((runPlugins ps ctx).2 = .ok () ↔ ∀ p ∈ ps, (p.execute ctx).2 = .ok ()) := by
  induction ps with
  | nil => exact ⟨rfl, iff_of_true rfl fun p hp ↦ absurd hp List.not_mem_nil⟩
  | cons p ps ih =>
    obtain ⟨hp, hps⟩ := List.forall_mem_cons.1 h
    obtain ⟨hctx, hok⟩ := ih hps
    have hkeeps := hp ctx
    rw [List.forall_mem_cons, runPlugins]
    rcases hexecute : p.execute ctx with ⟨ctx', e | u⟩
    · rw [hexecute] at hkeeps
      exact ⟨hkeeps, iff_of_false (by simp) (by simp)⟩
    · rw [hexecute] at hkeeps
      obtain rfl : ctx' = ctx := hkeeps
      exact ⟨hctx, hok.trans (and_iff_right rfl).symm⟩

/-- Where one plugin is in front of others that observe, it alone makes the context. -/
theorem runPlugins_append_eq_ok {ps ps' : List Plugin} (h : ∀ p ∈ ps', p.Observes)
    {ctx ctx' : PluginContext} :
    runPlugins (ps ++ ps') ctx = (ctx', .ok ()) ↔
      runPlugins ps ctx = (ctx', .ok ()) ∧ ∀ p ∈ ps', (p.execute ctx').2 = .ok () := by
  rw [runPlugins_append]
  rcases hrun : runPlugins ps ctx with ⟨front, e | u⟩
  · exact iff_of_false (by simp) (by simp)
  · obtain ⟨hctx, hok⟩ := runPlugins_of_observes h front
    show runPlugins ps' front = _ ↔ _
    rw [Prod.ext_iff, hctx, hok, Prod.ext_iff, and_iff_left rfl]
    exact and_congr_right fun heq ↦ by rw [show front = ctx' from heq]

theorem WordFilterPlugin.detects_eq_none {plugin : WordFilterPlugin}
    {toLowercase : String → String} {request : ChatCompletionRequest} :
    plugin.detects toLowercase request = none ↔
      ∀ text ∈ loweredMessages toLowercase request, ∀ word ∈ plugin.blockedWords,
        ¬word.toList <:+: text.toList := by
  rw [detects, List.findSome?_eq_none_iff]
  refine forall₂_congr fun text _ ↦ ?_
  rw [List.find?_eq_none]
  simp [Text.contains]

theorem WordFilterPlugin.ok_iff {plugin : WordFilterPlugin} {toLowercase : String → String}
    {ctx : PluginContext} :
    ((plugin.toPlugin toLowercase).execute ctx).2 = .ok () ↔
      ∀ text ∈ loweredMessages toLowercase ctx.request, ∀ word ∈ plugin.blockedWords,
        ¬word.toList <:+: text.toList := by
  rw [← detects_eq_none]
  rcases hdetects : plugin.detects toLowercase ctx.request with - | word
  · simp [toPlugin, hdetects]
  · simp [toPlugin, hdetects]

theorem MaxTokenPlugin.ok_iff {plugin : MaxTokenPlugin} {ctx : PluginContext} :
    (plugin.toPlugin.execute ctx).2 = .ok () ↔
      ∀ requested ∈ ctx.request.maxTokens, requested ≤ plugin.maxTokens := by
  rcases hrequested : ctx.request.maxTokens with - | requested
  · simp [toPlugin, hrequested]
  · simp [toPlugin, hrequested]

theorem PiiGuardrailPlugin.response_execute (plugin : PiiGuardrailPlugin) (ctx : PluginContext) :
    (plugin.execute ctx).1.response = ctx.response := by
  rcases hsettings : plugin.settings ctx with - | settings
  · rw [execute, hsettings]
  · rw [execute_eq hsettings]
    unfold PiiGuardrailSettings.conclude
    split
    · rfl
    · split
      · rfl
      · dsimp only
        split <;> rfl

namespace PluginSettings

variable (settings : PluginSettings)

/-- What the guardrail in front does to a request. -/
def redacts (parts : PluginParts) (live : Config) (ctx : PluginContext) :
    PluginContext × Except PluginError Unit :=
  match parts.engine with
  | .ok engine => (settings.piiPlugin parts live engine).execute ctx
  | .error _ => (ctx, .ok ())

/-- The plugins behind the guardrail, in their order. -/
def judges (parts : PluginParts) (stores : PluginStores) : List Plugin :=
  (if settings.wordFilter.isEmpty then []
    else [(WordFilterPlugin.new parts.toLowercase settings.wordFilter).toPlugin
      parts.toLowercase]) ++
    settings.maxTokensLimit.toList.map (fun limit ↦ MaxTokenPlugin.toPlugin ⟨limit⟩) ++
    settings.budgetPlugin.toList.map (·.toPlugin stores.spend stores.spendEnv) ++
    (settings.rateLimitPlugin parts.hash).toList.map (·.toPlugin stores.limiter stores.limiterEnv)

/-- What the plugins behind the guardrail let pass. -/
structure Admits (parts : PluginParts) (stores : PluginStores) (ctx : PluginContext) : Prop where
  words : ∀ text ∈ loweredMessages parts.toLowercase ctx.request, ∀ word ∈ settings.wordFilter,
    ¬(parts.toLowercase word).toList <:+: text.toList
  tokens : ∀ limit ∈ settings.maxTokensLimit, ∀ requested ∈ ctx.request.maxTokens,
    requested ≤ limit
  budget : ∀ plugin ∈ settings.budgetPlugin, ∀ key ∈ BudgetPlugin.spendKey ctx,
    plugin.limitFor ctx ≤ 0 ∨ stores.spend.get key < plugin.limitFor ctx
  rate : ∀ plugin ∈ settings.rateLimitPlugin parts.hash, ∀ scope,
    plugin.grants scope stores.limiter stores.limiterEnv ctx = true

variable {settings} {parts : PluginParts} {stores : PluginStores} {boot live : Config}
  [Decidable (settings.Configured boot)] {wired : WiredPlugins} {ctx ctx' : PluginContext}

theorem observes_judges : ∀ p ∈ settings.judges parts stores, p.Observes := by
  intro p hp
  simp only [judges, List.mem_append, List.mem_map] at hp
  rcases hp with ((hp | ⟨limit, -, rfl⟩) | ⟨plugin, -, rfl⟩) | ⟨plugin, -, rfl⟩
  · split_ifs at hp
    · cases hp
    · rw [List.mem_singleton.1 hp]
      exact fun ctx ↦ rfl
  · exact fun ctx ↦ rfl
  · exact fun ctx ↦ rfl
  · exact fun ctx ↦ rfl

/-- The guardrail alone is in front. -/
theorem front_registerPii {manager : PluginManager}
    (h : settings.registerPii parts boot live .new = some manager) :
    (∀ ctx, runPlugins manager.beforeRequest ctx = settings.redacts parts live ctx) ∧
      (∀ p ∈ manager.beforeRequest, p.name = "pii-guardrail") ∧ manager.afterRequest = [] := by
  rcases hengine : parts.engine with e | engine
  · simp only [registerPii, hengine, Option.ite_none_left_eq_some] at h
    obtain rfl : PluginManager.new = manager := Option.some.inj h.2
    exact ⟨fun ctx ↦ by rw [redacts, hengine]; rfl, fun p hp ↦ absurd hp List.not_mem_nil, rfl⟩
  · simp only [registerPii, hengine] at h
    obtain rfl := Option.some.inj h
    refine ⟨fun ctx ↦ ?_, fun p hp ↦ ?_, rfl⟩
    · rw [redacts, hengine]
      show runPlugins [(settings.piiPlugin parts live engine).toPlugin] ctx =
        (settings.piiPlugin parts live engine).execute ctx
      rw [runPlugins, show (settings.piiPlugin parts live engine).toPlugin.execute ctx =
        (settings.piiPlugin parts live engine).execute ctx from rfl]
      rcases (settings.piiPlugin parts live engine).execute ctx with ⟨ctx', e | u⟩
      · rfl
      · rfl
    · rw [List.mem_singleton.1 hp]
      rfl

/-- What `build` registers: in the before-request stage the guardrail and then the judges, and in
the after-request stage the logger and then the budget. -/
theorem stages_build (h : settings.build parts boot live stores = some wired) :
    (∃ front, wired.manager.beforeRequest = front ++ settings.judges parts stores ∧
        (∀ ctx, runPlugins front ctx = settings.redacts parts live ctx) ∧
        ∀ p ∈ front, p.name = "pii-guardrail") ∧
      wired.manager.afterRequest = requestLogger ::
        settings.budgetPlugin.toList.map (·.toPlugin stores.spend stores.spendEnv) := by
  obtain ⟨manager, hpii, rfl⟩ := Option.map_eq_some_iff.1 h
  obtain ⟨hfront, hnames, hafter⟩ := front_registerPii hpii
  refine ⟨⟨manager.beforeRequest, ?_, hfront, hnames⟩, ?_⟩
  all_goals
    -- each setting registers its plugin or none
    simp only [judges]
    rcases settings.wordFilter.isEmpty <;> rcases settings.maxTokensLimit with - | limit <;>
      rcases settings.budgetPlugin with - | budget <;>
      rcases settings.rateLimitPlugin parts.hash with - | rate <;>
      simp [PluginManager.register, WordFilterPlugin.toPlugin, MaxTokenPlugin.toPlugin,
        requestLogger, BudgetPlugin.toPlugin, RateLimitPlugin.toPlugin, hafter]

theorem globalLimiter_rateLimitPlugin {plugin : RateLimitPlugin}
    (h : settings.rateLimitPlugin parts.hash = some plugin) : plugin.globalLimiter = none := by
  obtain ⟨-, heq⟩ := Option.ite_none_right_eq_some.1 h
  rw [← Option.some.inj heq]
  rfl

/-- The judges let a request pass that has no response yet. -/
theorem judges_iff (hresponse : ctx.response = none) :
    (∀ p ∈ settings.judges parts stores, (p.execute ctx).2 = .ok ()) ↔
      settings.Admits parts stores ctx := by
  have hwords : (∀ p ∈ if settings.wordFilter.isEmpty then []
        else [(WordFilterPlugin.new parts.toLowercase settings.wordFilter).toPlugin
          parts.toLowercase], (p.execute ctx).2 = .ok ()) ↔
      ∀ text ∈ loweredMessages parts.toLowercase ctx.request, ∀ word ∈ settings.wordFilter,
        ¬(parts.toLowercase word).toList <:+: text.toList := by
    split_ifs with hempty
    · rw [List.isEmpty_iff.1 hempty]
      exact iff_of_true (fun p hp ↦ absurd hp List.not_mem_nil) fun _ _ word hword ↦
        absurd hword List.not_mem_nil
    · rw [List.forall_mem_singleton, WordFilterPlugin.ok_iff]
      simp [WordFilterPlugin.new]
  have htokens : (∀ p ∈ settings.maxTokensLimit.toList.map
          (fun limit ↦ MaxTokenPlugin.toPlugin ⟨limit⟩), (p.execute ctx).2 = .ok ()) ↔
      ∀ limit ∈ settings.maxTokensLimit, ∀ requested ∈ ctx.request.maxTokens,
        requested ≤ limit := by
    simp only [List.forall_mem_map, Option.mem_toList, MaxTokenPlugin.ok_iff, Option.mem_def]
  have hbudget : (∀ p ∈ settings.budgetPlugin.toList.map
          (·.toPlugin stores.spend stores.spendEnv), (p.execute ctx).2 = .ok ()) ↔
      ∀ plugin ∈ settings.budgetPlugin, ∀ key ∈ BudgetPlugin.spendKey ctx,
        plugin.limitFor ctx ≤ 0 ∨ stores.spend.get key < plugin.limitFor ctx := by
    simp only [List.forall_mem_map, Option.mem_toList]
    exact forall₂_congr fun plugin _ ↦
      (plugin.execute_before stores.spend stores.spendEnv hresponse).2
  have hrate : (∀ p ∈ (settings.rateLimitPlugin parts.hash).toList.map
          (·.toPlugin stores.limiter stores.limiterEnv), (p.execute ctx).2 = .ok ()) ↔
      ∀ plugin ∈ settings.rateLimitPlugin parts.hash, ∀ scope,
        plugin.grants scope stores.limiter stores.limiterEnv ctx = true := by
    simp only [List.forall_mem_map, Option.mem_toList]
    refine forall₂_congr fun plugin hplugin ↦ ?_
    have hglobal : plugin.grantsGlobal stores.limiter stores.limiterEnv = true := by
      rw [RateLimitPlugin.grantsGlobal, globalLimiter_rateLimitPlugin hplugin]
      rfl
    exact (plugin.execute_eq stores.limiter stores.limiterEnv ctx).1.trans
      (and_iff_right hglobal)
  rw [judges, List.forall_mem_append, List.forall_mem_append, List.forall_mem_append, hwords,
    htokens, hbudget, hrate]
  exact ⟨fun h ↦ ⟨h.1.1.1, h.1.1.2, h.1.2, h.2⟩,
    fun h ↦ ⟨⟨⟨h.words, h.tokens⟩, h.budget⟩, h.rate⟩⟩

/-- A request passes the wired plugins exactly when every judge lets pass what the guardrail makes
of it. -/
theorem runBefore_build (h : settings.build parts boot live stores = some wired)
    (hresponse : ctx.response = none) :
    wired.manager.runBefore ctx = (ctx', .ok ()) ↔
      settings.redacts parts live ctx = (ctx', .ok ()) ∧ settings.Admits parts stores ctx' := by
  obtain ⟨⟨front, hbefore, hfront, -⟩, -⟩ := stages_build h
  rw [PluginManager.runBefore, hbefore, runPlugins_append_eq_ok observes_judges, hfront]
  refine and_congr_right fun hredacts ↦ judges_iff ?_
  rw [redacts] at hredacts
  rcases hengine : parts.engine with e | engine
  · rw [hengine] at hredacts
    obtain rfl : ctx = ctx' := congrArg Prod.fst hredacts
    exact hresponse
  · rw [hengine] at hredacts
    have hkeeps := (settings.piiPlugin parts live engine).response_execute ctx
    rwa [show (settings.piiPlugin parts live engine).execute ctx = (ctx', .ok ()) from hredacts,
      hresponse] at hkeeps

end PluginSettings

/-! ### What providers are asked -/

namespace Gateway

variable {g : Gateway} {env : RouteEnv} {request : ChatCompletionRequest}
  {auth : Option AuthContext} {remoteIp : Option String} {call : ProviderCall}

/-- A request that is prepared has passed the plugins. -/
theorem runBefore_of_prepareRequest {env : RequestEnv} {ctx : PluginContext}
    (h : g.prepareRequest env request auth remoteIp = .ok ctx) :
    env.manager.runBefore (freshContext env request auth remoteIp) = (ctx, .ok ()) := by
  rw [prepareRequest] at h
  rcases hguards : g.checkGuards env request auth with e | u
  · rw [hguards] at h
    cases h
  · rw [hguards] at h
    dsimp only at h
    split at h
    · next hrun => rwa [← Except.ok.inj h]
    · cases h

/-- Both paths ask providers only for what the prologue has made of the request. -/
theorem request_of_mem_calls (h : call ∈ (g.route env request auth remoteIp).calls ∨
      ∃ trial, call ∈ (g.routeStream ⟨env.toRequestEnv, trial⟩ auth request remoteIp).calls) :
    ∃ ctx, g.prepareRequest env.toRequestEnv request auth remoteIp = .ok ctx ∧
      call.request = ctx.request := by
  rcases hprepare : g.prepareRequest env.toRequestEnv request auth remoteIp with e | ctx
  · rcases h with h | ⟨trial, h⟩
    · rw [route, hprepare] at h
      cases h
    · rw [routeStream, hprepare] at h
      cases h
  · refine ⟨ctx, rfl, ?_⟩
    rcases h with h | ⟨trial, h⟩
    · rw [route, hprepare] at h
      dsimp only at h
      rcases hanswer : g.answer env ctx.request auth with e | answered
      · rw [hanswer] at h
        cases h
      · rw [hanswer] at h
        exact (seesOnly_finish hanswer).calls call h
    · rw [request_of_prepareRequest hprepare]
      exact routeStream_seesOnly.calls call h

end Gateway

namespace PluginSettings

variable {settings : PluginSettings} {parts : PluginParts} {stores : PluginStores}
  {boot : Config} [Decidable (settings.Configured boot)] {wired : WiredPlugins}
  {g : Gateway} {env : RouteEnv} {request : ChatCompletionRequest} {auth : Option AuthContext}
  {remoteIp : Option String} {call : ProviderCall}

/-- The word `secret` is blocked, and the guardrail redacts it for users. -/
def secretBlocked : PluginSettings where
  wordFilter := ["secret"]
  maxTokensLimit := some 100
  budgetSpendLimitUsd := none
  budgetInputPerM := none
  budgetOutputPerM := none
  rateLimitKeyRpm := some 1
  rateLimitIpRpm := none
  cache := none
  piiDefaults := some ⟨.redact, .default, [.user], false, false⟩
  piiResponseDefaults := none

/-- An engine that knows the word. -/
def wordParts : PluginParts where
  engine := .ok wordEngine
  panics _ := none
  inlineLimitBytes := 4096
  toLowercase := id
  hash := String.length

/-- Stores without entries. -/
def freshStores : PluginStores where
  spend := .new 1
  spendEnv := ⟨0, ""⟩
  limiter := ⟨0, fun _ _ ↦ ∅⟩
  limiterEnv := ⟨0, fun _ ↦ 0, fun _ ↦ ""⟩

/-- Nothing in the way but the plugins, and a key for every provider. -/
def secretEnv (manager : PluginManager) : RouteEnv :=
  { RouteEnv.plain with manager, vars := fun _ ↦ some "key" }

end PluginSettings

end Himadri
