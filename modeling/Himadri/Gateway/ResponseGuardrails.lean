import Himadri.Gateway.Route
import Himadri.Provider.Registry
import Himadri.Plugins.PiiResponse

/-!
# Routing under PII response guardrails

What `route` returns where the response guardrails are PII guardrails. The first that does not allow
decides, on the text as the provider gave it, and an error of a guardrail lets the response through.
So the guardrails fail closed and compose only where no scan that is reached panics and where, after
one that rewrites the text, none would withhold it or rewrite it once more
(`failsClosedAndComposes_iff`).
-/

namespace Himadri

/-- The guardrail as it is registered. Where its scan ends the request, nothing reads the action. -/
def PiiResponseGuardrail.guardrail (g : PiiResponseGuardrail) : ResponseGuardrail where
  name := "pii-response-guardrail"
  checkResponse ctx text := (g.checkResponse ctx text).getD (.ok .allow)

theorem runGuardrails_guardrail {ctx : PluginContext} {text : String}
    {guardrails : List PiiResponseGuardrail} {r : Except PluginError ResponseAction}
    (h : runPiiGuardrails ctx text guardrails = some r) :
    runGuardrails ctx text (guardrails.map (·.guardrail)) = r := by
  induction guardrails with
  | nil => exact Option.some_inj.1 h
  | cons g guardrails ih =>
    rw [runPiiGuardrails] at h
    rw [List.map_cons, runGuardrails]
    rcases hcheck : g.checkResponse ctx text with - | (e | (- | reason | text'))
    · rw [hcheck] at h
      cases h
    all_goals
      rw [hcheck] at h
      simp only [PiiResponseGuardrail.guardrail, hcheck, Option.getD_some]
    · exact Option.some_inj.1 h
    · exact ih h
    · exact Option.some_inj.1 h
    · exact Option.some_inj.1 h

/-- The guardrails registered for the responses. -/
def RouteEnv.withGuardrails (env : RouteEnv) (guardrails : List PiiResponseGuardrail) : RouteEnv :=
  { env with manager :=
      { env.manager with responseGuardrails := guardrails.map (·.guardrail) } }

namespace Gateway

variable (g : Gateway) (env : RouteEnv) (guardrails : List PiiResponseGuardrail)
  (request : ChatCompletionRequest) (auth : Option AuthContext) (remoteIp : Option String)

/-- The context and the response that the response guardrails are run on. -/
def produced : Option (PluginContext × ChatCompletionResponse) :=
  match g.prepareRequest env.toRequestEnv request auth remoteIp with
  | .error _ => none
  | .ok ctx =>
    match g.answer env ctx.request auth with
    | .error _ => none
    | .ok answer => answer.result.toOption.map (env.manager.runAfter (ctx.observe answer), ·)

/-- A guardrail panics on the request's own thread. -/
def unwinds : Bool :=
  (g.produced env request auth remoteIp).any fun p ↦
    (extractResponseText p.2).any fun text ↦ (runPiiGuardrails p.1 text guardrails).isNone

/-- `route`, under the guardrails; `none` where it ends in a panic. -/
def guardedRoute : Option RouteRun :=
  if g.unwinds env guardrails request auth remoteIp then none
  else some (g.route (env.withGuardrails guardrails) request auth remoteIp)

/-- What the client gets. -/
def returned : Option (Except GatewayError ChatCompletionResponse) :=
  (g.guardedRoute env guardrails request auth remoteIp).map (·.result)

end Gateway

/-- What `route` makes of the guardrails' verdict. -/
def respond (response : ChatCompletionResponse) :
    Except PluginError ResponseAction → Except GatewayError ChatCompletionResponse
  | .ok .allow => .ok response
  | .ok (.reject reason) => .error (.badRequest ("Response blocked by guardrail: " ++ reason))
  | .ok (.redact redacted) => .ok (redactResponseText response redacted)
  | .error _ => .ok response

section Returned

variable {g : Gateway} {env : RouteEnv} {guardrails : List PiiResponseGuardrail}
  {request : ChatCompletionRequest} {auth : Option AuthContext} {remoteIp : Option String}
  {ctx : PluginContext} {response : ChatCompletionResponse} {text : String}

/-- `finish` under guardrails that come to a verdict. -/
theorem result_finish {target : Target} {latencyMs : ℕ} {calls : List ProviderCall}
    {r : Except PluginError ResponseAction} (htext : extractResponseText response = some text)
    (h : env.manager.runResponseGuardrails
      (env.manager.runAfter (ctx.observe ⟨target, .ok response, latencyMs, calls⟩)) text = r) :
    (Gateway.finish env request auth ctx ⟨target, .ok response, latencyMs, calls⟩).result =
      respond response r := by
  subst h
  simp only [Gateway.finish, Except.toOption, Option.bind_some, htext, Option.map_some]
  split
  · next h => rw [h]; rfl
  · next reason h => rw [h]; rfl
  · next redacted h => rw [h]; rfl
  · next e h => rw [h]; rfl

/-- What the client gets of a response. -/
theorem returned_of_produced (h : g.produced env request auth remoteIp = some (ctx, response)) :
    g.returned env guardrails request auth remoteIp =
      match extractResponseText response with
      | none => some (.ok response)
      | some text => (runPiiGuardrails ctx text guardrails).map (respond response) := by
  have hunwinds : g.unwinds env guardrails request auth remoteIp =
      (extractResponseText response).any fun text ↦
        (runPiiGuardrails ctx text guardrails).isNone := by
    rw [Gateway.unwinds, h]
    rfl
  rw [Gateway.returned, Gateway.guardedRoute, hunwinds]
  rw [Gateway.produced] at h
  rcases hctx : g.prepareRequest env.toRequestEnv request auth remoteIp with e | ctx'
  · rw [hctx] at h
    cases h
  rw [hctx] at h
  rcases hanswer : g.answer env ctx'.request auth with e | ⟨target, e | response', latencyMs, calls⟩
  · simp only [hanswer] at h
    cases h
  · simp only [hanswer] at h
    cases h
  · simp only [hanswer] at h
    obtain ⟨rfl, rfl⟩ := Prod.mk.inj (Option.some_inj.1 h)
    have hroute : g.route (env.withGuardrails guardrails) request auth remoteIp =
        Gateway.finish (env.withGuardrails guardrails) ctx'.request auth ctx'
          ⟨target, .ok response', latencyMs, calls⟩ := by
      have hprepare : g.prepareRequest (env.withGuardrails guardrails).toRequestEnv request auth
          remoteIp = .ok ctx' := hctx
      have hsame : g.answer (env.withGuardrails guardrails) ctx'.request auth =
          .ok ⟨target, .ok response', latencyMs, calls⟩ := hanswer
      simp only [Gateway.route, hprepare, hsame]
    rw [hroute]
    rcases htext : extractResponseText response' with - | text
    · simp only [Option.any_none, Bool.false_eq_true, if_false, Option.map_some, Gateway.finish,
        Except.toOption, Option.bind_some, htext, Option.map_none]
      rfl
    · rw [Option.any_some]
      rcases hverdict : runPiiGuardrails _ text guardrails with - | r
      · simp only [hverdict, Option.isNone_none, if_true, Option.map_none]
      · simp only [hverdict, Option.isNone_some, Bool.false_eq_true, if_false, Option.map_some]
        exact congrArg some (result_finish htext (runGuardrails_guardrail hverdict))

end Returned

/-! ### Several guardrails -/

/-- The same guardrails, with other limits. -/
def withLimits (limits : PiiResponseGuardrail → ℕ) (guardrails : List PiiResponseGuardrail) :
    List PiiResponseGuardrail :=
  guardrails.map fun g ↦ { g with inlineLimitBytes := limits g }

/-- What guardrails are to make of a response: it is withheld where one asks for that, comes as it
is where all let it pass, and else with its text rewritten by one after the other; and the limits
are of no account. -/
structure FailsClosedAndComposes
    (returned : List PiiResponseGuardrail → Option (Except GatewayError ChatCompletionResponse))
    (ctx : PluginContext) (response : ChatCompletionResponse) (text : String)
    (guardrails : List PiiResponseGuardrail) : Prop where
  withheld : (∃ g ∈ guardrails, g.stance ctx text = .withholds) →
    ∀ r, returned guardrails ≠ some (.ok r)
  unchanged : (∀ g ∈ guardrails, g.stance ctx text = .passes) →
    returned guardrails = some (.ok response)
  rewritten : (∀ g ∈ guardrails, g.stance ctx text ≠ .withholds) →
    (∃ g ∈ guardrails, ∃ t, g.stance ctx text = .rewrites t) →
    returned guardrails = some (.ok (redactResponseText response
      (guardrails.foldl (fun t g ↦ g.rewrite ctx t) text)))
  limits : ∀ limits, returned (withLimits limits guardrails) = returned guardrails

/-- No guardrail that is reached panics, and those after one that rewrites the text neither withhold
it nor rewrite it once more. -/
def InTurn (ctx : PluginContext) (text : String) : List PiiResponseGuardrail → Prop
  | [] => True
  | g :: guardrails =>
    ¬g.Panics ctx text ∧
      match g.stance ctx text with
      | .passes => InTurn ctx text guardrails
      | .withholds => True
      | .rewrites t =>
        (∀ g' ∈ guardrails, g'.stance ctx text ≠ .withholds) ∧
          guardrails.foldl (fun t g ↦ g.rewrite ctx t) t = t

section Several

variable {ctx : PluginContext} {response : ChatCompletionResponse} {text : String}
  {g : PiiResponseGuardrail} {guardrails : List PiiResponseGuardrail}

/-- A guardrail that lets the text pass leaves it to the others. -/
theorem runPiiGuardrails_of_passes (hpanics : ¬g.Panics ctx text)
    (hstance : g.stance ctx text = .passes) (guardrails : List PiiResponseGuardrail) :
    runPiiGuardrails ctx text (g :: guardrails) = runPiiGuardrails ctx text guardrails := by
  obtain ⟨a, hcheck, htaken⟩ := PiiResponseGuardrail.checkResponse_of_not_panics hpanics
  rw [hstance] at htaken
  obtain rfl : a = .allow := htaken
  rw [runPiiGuardrails, hcheck]

/-- A guardrail that does not let the text pass decides alone, whatever the limits. -/
theorem runPiiGuardrails_of_stops (hpanics : ¬g.Panics ctx text)
    (hstance : g.stance ctx text ≠ .passes) (guardrails : List PiiResponseGuardrail) :
    ∃ a, (g.stance ctx text).Taken a ∧
      runPiiGuardrails ctx text (g :: guardrails) = some (.ok a) ∧
      ∀ limits, runPiiGuardrails ctx text (withLimits limits (g :: guardrails)) = some (.ok a) := by
  obtain ⟨a, hcheck, htaken⟩ := PiiResponseGuardrail.checkResponse_of_not_panics hpanics
  have hne : a ≠ .allow := by
    rintro rfl
    cases hs : g.stance ctx text with
    | passes => exact hstance hs
    | withholds =>
      rw [hs] at htaken
      obtain ⟨reason, h⟩ := htaken
      cases h
    | rewrites t =>
      rw [hs] at htaken
      cases htaken
  refine ⟨a, htaken, ?_, fun limits ↦ ?_⟩
  · rw [runPiiGuardrails, hcheck]
    cases a with
    | allow => exact absurd rfl hne
    | reject reason => rfl
    | redact t => rfl
  · rw [withLimits, List.map_cons, runPiiGuardrails,
      PiiResponseGuardrail.checkResponse_withLimit hpanics, hcheck]
    cases a with
    | allow => exact absurd rfl hne
    | reject reason => rfl
    | redact t => rfl

/-- A guardrail that is reached and panics lets the response through above its limit and ends the
request below. -/
theorem panics_limits (h : g.Panics ctx text) (guardrails : List PiiResponseGuardrail) :
    ∃ limits limits', (runPiiGuardrails ctx text (withLimits limits (g :: guardrails))).isSome ∧
      runPiiGuardrails ctx text (withLimits limits' (g :: guardrails)) = none := by
  have hpos := PiiResponseGuardrail.utf8ByteSize_pos_of_panics h
  refine ⟨fun _ ↦ 0, fun _ ↦ text.utf8ByteSize, ?_, ?_⟩
  · have hpanics : { g with inlineLimitBytes := 0 }.Panics ctx text := h
    obtain ⟨message, hcheck⟩ := PiiResponseGuardrail.checkResponse_of_panics hpanics
    rw [if_pos hpos] at hcheck
    rw [withLimits, List.map_cons, runPiiGuardrails, hcheck]
    rfl
  · have hpanics : { g with inlineLimitBytes := text.utf8ByteSize }.Panics ctx text := h
    obtain ⟨message, hcheck⟩ := PiiResponseGuardrail.checkResponse_of_panics hpanics
    rw [if_neg (lt_irrefl _)] at hcheck
    rw [withLimits, List.map_cons, runPiiGuardrails, hcheck]

/-- A response with a text shows what its text was rewritten to. -/
theorem redactResponseText_inj (htext : extractResponseText response = some text)
    {t t' : String} (h : redactResponseText response t = redactResponseText response t') :
    t = t' := by
  rcases hchoices : response.choices with - | ⟨c, choices⟩
  · rw [extractResponseText, hchoices] at htext
    cases htext
  · have hmap := congrArg ChatCompletionResponse.choices h
    rw [redactResponseText, redactResponseText, hchoices] at hmap
    have hcontent := congrArg (·.message.content) (List.cons.inj hmap).1
    exact Option.some_inj.1 hcontent

/-- The client's view of the guardrails' verdict. -/
def clientGets (ctx : PluginContext) (response : ChatCompletionResponse) (text : String)
    (guardrails : List PiiResponseGuardrail) :
    Option (Except GatewayError ChatCompletionResponse) :=
  (runPiiGuardrails ctx text guardrails).map (respond response)

/-- A guardrail that lets the text pass does not count. -/
theorem composes_cons_of_passes (hpanics : ¬g.Panics ctx text)
    (hstance : g.stance ctx text = .passes) :
    FailsClosedAndComposes (clientGets ctx response text) ctx response text (g :: guardrails) ↔
      FailsClosedAndComposes (clientGets ctx response text) ctx response text guardrails := by
  have hgets : clientGets ctx response text (g :: guardrails) =
      clientGets ctx response text guardrails :=
    congrArg (Option.map (respond response)) (runPiiGuardrails_of_passes hpanics hstance guardrails)
  have hlimits (limits : PiiResponseGuardrail → ℕ) :
      clientGets ctx response text (withLimits limits (g :: guardrails)) =
        clientGets ctx response text (withLimits limits guardrails) := by
    have hpasses : { g with inlineLimitBytes := limits g }.stance ctx text = .passes := hstance
    exact congrArg (Option.map (respond response))
      (runPiiGuardrails_of_passes (g := { g with inlineLimitBytes := limits g }) hpanics hpasses _)
  have hrewrite : g.rewrite ctx text = text := by
    rw [PiiResponseGuardrail.rewrite, hstance]
  constructor
  · rintro ⟨hwithheld, hunchanged, hrewritten, hlimit⟩
    refine ⟨fun ⟨g', hg', hw⟩ ↦ ?_, fun hall ↦ ?_, fun hall ⟨g', hg', ht⟩ ↦ ?_, fun limits ↦ ?_⟩
    · rw [← hgets]
      exact hwithheld ⟨g', List.mem_cons_of_mem _ hg', hw⟩
    · rw [← hgets]
      exact hunchanged (List.forall_mem_cons.2 ⟨hstance, hall⟩)
    · have hhead : g.stance ctx text ≠ .withholds := by
        rw [hstance]
        exact Stance.noConfusion
      rw [← hgets, hrewritten (List.forall_mem_cons.2 ⟨hhead, hall⟩)
        ⟨g', List.mem_cons_of_mem _ hg', ht⟩, List.foldl_cons, hrewrite]
    · rw [← hgets, ← hlimits, hlimit]
  · rintro ⟨hwithheld, hunchanged, hrewritten, hlimit⟩
    refine ⟨fun ⟨g', hg', hw⟩ ↦ ?_, fun hall ↦ ?_, fun hall ⟨g', hg', t, ht⟩ ↦ ?_, fun limits ↦ ?_⟩
    · rw [hgets]
      rcases List.mem_cons.1 hg' with rfl | hg'
      · rw [hstance] at hw
        cases hw
      · exact hwithheld ⟨g', hg', hw⟩
    · rw [hgets]
      exact hunchanged (List.forall_mem_cons.1 hall).2
    · rw [hgets, List.foldl_cons, hrewrite]
      rcases List.mem_cons.1 hg' with rfl | hg'
      · rw [hstance] at ht
        cases ht
      · exact hrewritten (List.forall_mem_cons.1 hall).2 ⟨g', hg', t, ht⟩
    · rw [hgets, hlimits, hlimit]

/-- The guardrails fail closed and compose exactly when they are in turn. -/
theorem composes_clientGets_iff (htext : extractResponseText response = some text)
    (guardrails : List PiiResponseGuardrail) :
    FailsClosedAndComposes (clientGets ctx response text) ctx response text guardrails ↔
      InTurn ctx text guardrails := by
  induction guardrails with
  | nil =>
    refine iff_of_true ⟨fun ⟨_, hg, _⟩ ↦ absurd hg List.not_mem_nil, fun _ ↦ rfl,
      fun _ ⟨_, hg, _⟩ ↦ absurd hg List.not_mem_nil, fun _ ↦ rfl⟩ trivial
  | cons g guardrails ih =>
    rw [InTurn]
    by_cases hpanics : g.Panics ctx text
    · -- the outcome is one above the limit and another below
      refine iff_of_false (fun h ↦ ?_) fun h ↦ h.1 hpanics
      obtain ⟨limits, limits', hsome, hnone⟩ := panics_limits hpanics guardrails
      have heq := (h.limits limits).trans (h.limits limits').symm
      rw [clientGets, clientGets, hnone, Option.map_none, Option.map_eq_none_iff] at heq
      rw [heq] at hsome
      cases hsome
    rw [and_iff_right hpanics]
    cases hstance : g.stance ctx text with
    | passes => exact (composes_cons_of_passes hpanics hstance).trans ih
    | withholds =>
      have hstops : g.stance ctx text ≠ .passes := by
        rw [hstance]
        exact Stance.noConfusion
      obtain ⟨a, htaken, hrun, hlimits⟩ := runPiiGuardrails_of_stops hpanics hstops guardrails
      rw [hstance] at htaken
      obtain ⟨reason, rfl⟩ := htaken
      refine iff_of_true ⟨fun _ r hr ↦ ?_, fun hall ↦ ?_, fun hall ↦ ?_, fun limits ↦ ?_⟩ trivial
      · rw [clientGets, hrun] at hr
        cases hr
      · exact absurd (hall g List.mem_cons_self) hstops
      · exact absurd hstance (hall g List.mem_cons_self)
      · rw [clientGets, clientGets, hrun, hlimits]
    | rewrites t =>
      have hstops : g.stance ctx text ≠ .passes := by
        rw [hstance]
        exact Stance.noConfusion
      obtain ⟨a, htaken, hrun, hlimits⟩ := runPiiGuardrails_of_stops hpanics hstops guardrails
      rw [hstance] at htaken
      obtain rfl : a = .redact t := htaken
      have hgets : clientGets ctx response text (g :: guardrails) =
          some (.ok (redactResponseText response t)) := by
        rw [clientGets, hrun]
        rfl
      have hrewrite : g.rewrite ctx text = t := by
        rw [PiiResponseGuardrail.rewrite, hstance]
      have hhead : g.stance ctx text ≠ .withholds := by
        rw [hstance]
        exact Stance.noConfusion
      constructor
      · intro h
        have hnone : ∀ g' ∈ guardrails, g'.stance ctx text ≠ .withholds := fun g' hg' hw ↦
          h.withheld ⟨g', List.mem_cons_of_mem _ hg', hw⟩ _ hgets
        refine ⟨hnone, ?_⟩
        have hrewritten := h.rewritten (List.forall_mem_cons.2 ⟨hhead, hnone⟩)
          ⟨g, List.mem_cons_self, t, hstance⟩
        rw [hgets, List.foldl_cons, hrewrite] at hrewritten
        exact (redactResponseText_inj htext (Except.ok.inj (Option.some_inj.1 hrewritten))).symm
      · rintro ⟨hnone, hfold⟩
        refine ⟨fun ⟨g', hg', hw⟩ ↦ ?_, fun hall ↦ ?_, fun _ _ ↦ ?_, fun limits ↦ ?_⟩
        · rcases List.mem_cons.1 hg' with rfl | hg'
          · exact absurd hw hhead
          · exact absurd hw (hnone g' hg')
        · exact absurd (hall g List.mem_cons_self) hstops
        · rw [hgets, List.foldl_cons, hrewrite, hfold]
        · rw [clientGets, clientGets, hrun, hlimits]

end Several

/-- The guardrails of a route fail closed and compose exactly when they are in turn. -/
theorem failsClosedAndComposes_iff {g : Gateway} {env : RouteEnv} {request : ChatCompletionRequest}
    {auth : Option AuthContext} {remoteIp : Option String} {ctx : PluginContext}
    {response : ChatCompletionResponse} {text : String}
    (h : g.produced env request auth remoteIp = some (ctx, response))
    (htext : extractResponseText response = some text)
    (guardrails : List PiiResponseGuardrail) :
    FailsClosedAndComposes (fun guardrails ↦ g.returned env guardrails request auth remoteIp) ctx
      response text guardrails ↔ InTurn ctx text guardrails := by
  have hreturned : (fun guardrails ↦ g.returned env guardrails request auth remoteIp) =
      clientGets ctx response text := by
    funext guardrails
    rw [returned_of_produced h, htext]
    rfl
  rw [hreturned]
  exact composes_clientGets_iff htext guardrails

/-- An engine that finds the word `secret` where the text is nothing else. -/
def secretEngine : PiiEngine where
  scan text _ := .ok (if text = "secret" then [⟨"SECRET", 0, 6, 1⟩] else [])
  redact text _ := .ok (if text = "secret" then ⟨"[SECRET]", [("SECRET", 1)]⟩ else ⟨text, []⟩)

/-- A guardrail that fails closed, over every text. -/
def secretGuardrail (mode : PiiResponseMode) (panics : String → Option String) :
    PiiResponseGuardrail where
  engine := secretEngine
  panics
  settings _ := some ⟨mode, .default, false⟩
  inlineLimitBytes := 0

/-- A gateway with a provider for its target. -/
def oneProvider : Gateway := Gateway.oneModel.registerProvider (.compatible .openai)

/-- The provider answers with the text. -/
def RouteEnv.answering (text : String) : RouteEnv :=
  { RouteEnv.plain with
    vars := fun _ ↦ some "key"
    trial := fun _ ↦ ⟨true, .ok (.ofText "response" "gpt-4o" text), 1⟩ }

/-- The request of the runs below. -/
def helloRequest : ChatCompletionRequest := .ofMessages "gpt-4o" [.user "hello"]

theorem produced_answering (text : String) : ∃ ctx,
    oneProvider.produced (.answering text) helloRequest none none =
      some (ctx, .ofText "response" "gpt-4o" text) := by
  have h : (oneProvider.produced (.answering text) helloRequest none none).map (·.2) =
      some (.ofText "response" "gpt-4o" text) := rfl
  obtain ⟨⟨ctx, r⟩, hproduced, rfl⟩ := Option.map_eq_some_iff.1 h
  exact ⟨ctx, hproduced⟩

theorem block_then_redact_composes : ∃ ctx, FailsClosedAndComposes
    (fun guardrails ↦ oneProvider.returned (.answering "secret") guardrails helloRequest none none)
    ctx (.ofText "response" "gpt-4o" "secret") "secret"
    [secretGuardrail .block fun _ ↦ none, secretGuardrail .redact fun _ ↦ none] := by
  obtain ⟨ctx, h⟩ := produced_answering "secret"
  refine ⟨ctx, (failsClosedAndComposes_iff h rfl _).2 ⟨fun hpanics ↦ ?_, trivial⟩⟩
  exact absurd hpanics.2 Bool.false_ne_true

/-- An engine that panics on the blocking pool lets the response through, though its guardrail fails
closed; and a text is rewritten where a later guardrail would withhold it. -/
theorem withheld_returned : ∃ ctx,
    oneProvider.produced (.answering "secret") helloRequest none none =
      some (ctx, .ofText "response" "gpt-4o" "secret") ∧
    ¬FailsClosedAndComposes
      (fun guardrails ↦ oneProvider.returned (.answering "secret") guardrails helloRequest none none)
      ctx (.ofText "response" "gpt-4o" "secret") "secret"
      [secretGuardrail .block fun _ ↦ some "panicked"] ∧
    ¬FailsClosedAndComposes
      (fun guardrails ↦ oneProvider.returned (.answering "secret") guardrails helloRequest none none)
      ctx (.ofText "response" "gpt-4o" "secret") "secret"
      [secretGuardrail .redact fun _ ↦ none, secretGuardrail .block fun _ ↦ none] := by
  obtain ⟨ctx, h⟩ := produced_answering "secret"
  refine ⟨ctx, h, fun hcomposes ↦ ?_, fun hcomposes ↦ ?_⟩
  · exact hcomposes.withheld ⟨_, List.mem_cons_self, rfl⟩ (.ofText "response" "gpt-4o" "secret") rfl
  · exact hcomposes.withheld ⟨_, List.mem_cons_of_mem _ List.mem_cons_self, rfl⟩
      (.ofText "response" "gpt-4o" "[SECRET]") rfl

end Himadri
