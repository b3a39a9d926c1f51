import Himadri.Gateway.Embeddings
import Himadri.Gateway.FailoverLoop

/-!
# What status a client is told

Three mappings turn what the failover loop and the loop of `embed` fail with into the error of a
call: `route` flattens everything into a `ProviderError` first, `route_stream` keeps the failures of
the gateway apart, and `embed` wraps the text of a provider's error. `ThreePaths` is one chat
request and one embedding request before a gateway, the chat request with the same outcome of every
attempt on both of its paths.

The two chat paths agree on the status unless the loop ends at a target without a client
(`Gateway.EndsUnregistered`), and `embed` tells the status of a provider's error only where that is
500 anyway.
-/

namespace Himadri

/-- `GatewayError::status_code`. -/
def GatewayError.statusCode : GatewayError → ℕ
  | .providerNotFound _ => 404
  | .circuitOpen _ => 503
  | .rateLimited _ => 429
  | .quotaExceeded _ => 429
  | .unauthorized => 401
  | .forbidden _ => 403
  | .notFound _ => 404
  | .badRequest _ => 400
  | .provider _ => 500
  | .config _ => 400
  | .internal _ => 500
  | .serviceUnavailable _ => 503

variable {α β α' β' : Type*}

/-- The outcome of a result, without the value. -/
def fateOf (result : Except AttemptError α) : Except AttemptError Unit := result.map fun _ ↦ ()

theorem fateOf_eq_error {result : Except AttemptError α} {err : AttemptError} :
    fateOf result = .error err ↔ result = .error err := by
  cases result <;> simp [fateOf, Except.map]

namespace Gateway

/-! ### Where the loop ends -/

section Loop

variable {g : Gateway} {vars : String → Option String} {op : Target → ProviderClient → String → β}
  {op' : Target → ProviderClient → String → β'} {ordered : List Target} {trial : ℕ → Trial α}
  {trial' : ℕ → Trial α'}

/-- The loop comes to the last target, whose breaker admits and which has no client. -/
structure EndsUnregistered (g : Gateway) (vars : String → Option String) (ordered : List Target)
    (trial : ℕ → Trial α) (last : Target) : Prop where
  getLast : ordered.getLast? = some last
  passed : ∀ k t, ordered[k]? = some t → k + 1 < ordered.length → g.GoesOn vars t (trial k)
  admitted : (trial (ordered.length - 1)).admitted = true
  unregistered : g.providers.get (routingKey last) = none

/-- The loop ends at some position, with the result of that position. -/
theorem exists_failover_end (g : Gateway) (vars : String → Option String)
    (op : Target → ProviderClient → String → β) (trial : ℕ → Trial α) (hne : ordered ≠ [])
    (latencyMs : ℕ) :
    ∃ e i target, g.failover vars op ordered trial latencyMs = some e ∧
      ordered[i]? = some target ∧
      (∀ k < i, ∃ t, ordered[k]? = some t ∧ g.GoesOn vars t (trial k)) ∧
      (i + 1 = ordered.length ∨ ¬g.GoesOn vars target (trial i)) ∧
      e.result = (g.tryTarget vars target (trial i)).1 := by
  induction ordered generalizing trial latencyMs with
  | nil => exact absurd rfl hne
  | cons t rest ih =>
    rw [failover]
    rcases hon : (g.tryTarget vars t (trial 0)).2 with - | -
    · have hstop : ¬g.GoesOn vars t (trial 0) := by
        rw [← tryTarget_snd, hon]
        exact Bool.false_ne_true
      exact ⟨_, 0, t, rfl, rfl, fun k hk ↦ absurd hk (Nat.not_lt_zero k), .inr hstop, rfl⟩
    · rcases rest with - | ⟨next, rest⟩
      · exact ⟨_, 0, t, rfl, rfl, fun k hk ↦ absurd hk (Nat.not_lt_zero k), .inl rfl, rfl⟩
      · obtain ⟨e, i, target, he, htarget, hpassed, hstop, hresult⟩ :=
          ih (fun i ↦ trial (i + 1)) (List.cons_ne_nil next rest)
            (if (g.operation vars op t (trial 0)).isSome then (trial 0).latencyMs else latencyMs)
        refine ⟨{ e with calls := (g.operation vars op t (trial 0)).toList ++ e.calls }, i + 1,
          target, ?_, htarget, fun k hk ↦ ?_, ?_, hresult⟩
        · simp only [if_true, he]
        · rcases k with - | k
          · exact ⟨t, rfl, tryTarget_snd.1 hon⟩
          · exact hpassed k (by omega)
        · rcases hstop with hlast | hstop
          · exact .inl (by rw [List.length_cons, hlast])
          · exact .inr hstop

theorem tryTarget_fate (g : Gateway) (vars : String → Option String) (target : Target)
    {w : Trial α} {w' : Trial α'} (h : w.fate = w'.fate) :
    (g.tryTarget vars target w).2 = (g.tryTarget vars target w').2 ∧
      fateOf (g.tryTarget vars target w).1 = fateOf (g.tryTarget vars target w').1 := by
  obtain ⟨admitted, result, latencyMs⟩ := w
  obtain ⟨admitted', result', latencyMs'⟩ := w'
  obtain ⟨rfl, hresult⟩ := Fate.mk.inj h
  simp only [tryTarget, outcome]
  rcases admitted with - | -
  · exact ⟨rfl, rfl⟩
  · rcases g.providers.get (routingKey target) with - | client
    · exact ⟨rfl, rfl⟩
    · rcases g.getApiKey vars target with e | key
      · exact ⟨rfl, rfl⟩
      · rcases result with e | v <;> rcases result' with e' | v'
        · obtain rfl := Except.error.inj hresult
          exact ⟨rfl, rfl⟩
        · cases hresult
        · cases hresult
        · exact ⟨rfl, rfl⟩

/-- What the loop fails with depends on the fates of the attempts only. -/
theorem failover_fate (h : ∀ i, (trial i).fate = (trial' i).fate) (latencyMs latencyMs' : ℕ) :
    (g.failover vars op ordered trial latencyMs).map (fateOf ·.result) =
      (g.failover vars op' ordered trial' latencyMs').map (fateOf ·.result) := by
  induction ordered generalizing trial trial' latencyMs latencyMs' with
  | nil => rfl
  | cons t rest ih =>
    obtain ⟨hon, hfate⟩ := g.tryTarget_fate vars t (h 0)
    rw [failover, failover, hon]
    rcases (g.tryTarget vars t (trial' 0)).2 with - | -
    · exact congrArg some hfate
    · have hrest := ih (fun i ↦ h (i + 1))
        (if (g.operation vars op t (trial 0)).isSome then (trial 0).latencyMs else latencyMs)
        (if (g.operation vars op' t (trial' 0)).isSome then (trial' 0).latencyMs else latencyMs')
      simp only [if_true]
      revert hrest
      rcases g.failover vars op rest (fun i ↦ trial (i + 1)) _ with - | e <;>
        rcases g.failover vars op' rest (fun i ↦ trial' (i + 1)) _ with - | e' <;> intro hrest
      · exact congrArg some hfate
      · cases hrest
      · cases hrest
      · exact hrest

/-- The key lookup fails with one kind of error. -/
theorem getApiKey_error {target : Target} {e : GatewayError}
    (h : g.getApiKey vars target = .error e) : ∃ message, e = .serviceUnavailable message := by
  rcases henv : target.apiKeyEnv with - | envVar
  · simp [getApiKey, henv] at h
  · rcases hvar : vars envVar with - | key
    · rw [getApiKey, henv] at h
      simp only [hvar] at h
      exact ⟨_, (Except.error.inj h).symm⟩
    · simp [getApiKey, henv, hvar] at h

/-- The two mappings of the chat paths differ on a missing client only. -/
theorem statusCode_flatten_iff {target : Target} {w : Trial α} {err : AttemptError}
    (h : (g.tryTarget vars target w).1 = .error err) :
    err.flatten.toGatewayError.statusCode = err.toGatewayError.statusCode ↔
      ¬(w.admitted = true ∧ g.providers.get (routingKey target) = none) := by
  obtain ⟨admitted, result, latencyMs⟩ := w
  simp only [tryTarget, outcome] at h
  rcases admitted with - | -
  · obtain rfl := Except.error.inj h
    simp [AttemptError.flatten, AttemptError.toGatewayError, ProviderError.toGatewayError,
      GatewayError.statusCode]
  · rcases hclient : g.providers.get (routingKey target) with - | client
    · rw [hclient] at h
      obtain rfl := Except.error.inj h
      simp [AttemptError.flatten, AttemptError.toGatewayError, ProviderError.toGatewayError,
        GatewayError.statusCode]
    · rw [hclient] at h
      rcases hkey : g.getApiKey vars target with e | key
      · rw [hkey] at h
        obtain rfl := Except.error.inj h
        obtain ⟨message, rfl⟩ := getApiKey_error hkey
        simp [AttemptError.flatten, AttemptError.toGatewayError, ProviderError.toGatewayError,
          GatewayError.statusCode]
      · rw [hkey] at h
        rcases result with e | v
        · obtain rfl := Except.error.inj h
          simp [AttemptError.flatten, AttemptError.toGatewayError]
        · cases h

/-- Where the loop stops if it comes to a last target without a client. -/
theorem EndsUnregistered.at_last {last target : Target} {i : ℕ}
    (h : g.EndsUnregistered vars ordered trial last) (htarget : ordered[i]? = some target)
    (hstop : i + 1 = ordered.length ∨ ¬g.GoesOn vars target (trial i)) :
    i + 1 = ordered.length ∧ target = last ∧ (trial i).admitted = true := by
  have hi : i < ordered.length := (List.getElem?_eq_some_iff.1 htarget).1
  have hlast : i + 1 = ordered.length := by
    by_contra hmiddle
    exact hstop.resolve_left hmiddle (h.passed i target htarget (by omega))
  have hget := h.getLast
  have hadmitted := h.admitted
  rw [List.getLast?_eq_getElem?, ← hlast, Nat.add_sub_cancel, htarget] at hget
  rw [← hlast, Nat.add_sub_cancel] at hadmitted
  exact ⟨hlast, Option.some.inj hget, hadmitted⟩

/-- Such a loop fails. -/
theorem EndsUnregistered.exists_error {last : Target}
    (h : g.EndsUnregistered vars ordered trial last) (latencyMs : ℕ) :
    ∃ e err, g.failover vars op ordered trial latencyMs = some e ∧ e.result = .error err := by
  have hne : ordered ≠ [] := by
    rintro rfl
    cases h.getLast
  obtain ⟨e, i, target, he, htarget, -, hstop, hresult⟩ :=
    g.exists_failover_end vars op trial hne latencyMs
  obtain ⟨-, rfl, hadmitted⟩ := h.at_last htarget hstop
  refine ⟨e, .providerNotFound target.provider, he, ?_⟩
  rw [hresult, tryTarget, if_pos hadmitted, outcome, h.unregistered]
  rfl

/-- Where the loop fails, the two mappings agree unless it ends at a target without a client. -/
theorem statusCode_failover_iff {latencyMs : ℕ} {e : FailoverEnd α β} {err : AttemptError}
    (he : g.failover vars op ordered trial latencyMs = some e) (herr : e.result = .error err) :
    err.flatten.toGatewayError.statusCode = err.toGatewayError.statusCode ↔
      ¬∃ last, g.EndsUnregistered vars ordered trial last := by
  have hne : ordered ≠ [] := by
    rintro rfl
    cases he
  obtain ⟨e', i, target, he', htarget, hpassed, hstop, hresult⟩ :=
    g.exists_failover_end vars op trial hne latencyMs
  obtain rfl := Option.some.inj (he.symm.trans he')
  rw [statusCode_flatten_iff (hresult.symm.trans herr), not_iff_not]
  constructor
  · rintro ⟨hadmitted, hclient⟩
    have hlast : i + 1 = ordered.length := hstop.resolve_right (not_not_intro (.inr (.inl hclient)))
    refine ⟨target, ?_, fun k t ht hk ↦ ?_, ?_, hclient⟩
    · rw [List.getLast?_eq_getElem?, ← hlast, Nat.add_sub_cancel, htarget]
    · obtain ⟨t', ht', hgoes⟩ := hpassed k (by omega)
      obtain rfl := Option.some.inj (ht.symm.trans ht')
      exact hgoes
    · rwa [← hlast, Nat.add_sub_cancel]
  · rintro ⟨last, hends⟩
    obtain ⟨-, rfl, hadmitted⟩ := hends.at_last htarget hstop
    exact ⟨hadmitted, hends.unregistered⟩

end Loop

/-! ### What `embed` fails with -/

end Gateway

/-- What a turn of the loop of `embed` can fail with. -/
inductive EmbedFailure
  | key (e : GatewayError)
  | provider (e : ProviderError)

/-- The error is told as 500. -/
def ProviderError.Opaque : ProviderError → Prop
  | .parse _ => True
  | .internal _ => True
  | _ => False

theorem ProviderError.statusCode_eq_iff {err : ProviderError} :
    err.toGatewayError.statusCode = 500 ↔ err.Opaque := by
  rcases err with - | - | - | - | ⟨status, message⟩ | - | - | - | - | - | - | -
  case api =>
    refine iff_of_false (fun h ↦ ?_) id
    rw [toGatewayError] at h
    split_ifs at h <;> simp [GatewayError.statusCode] at h
  all_goals simp [toGatewayError, GatewayError.statusCode, Opaque]

namespace Gateway

/-- The final failure of the loop of `embed`: the last one it meets, where no provider answers;
`last` is the last one before. -/
def embedFailure (g : Gateway) (vars : String → Option String) : (targets : List Target) →
    (answer : ℕ → Except ProviderError EmbeddingResponse) → (last : Option EmbedFailure) →
    Option EmbedFailure
  | [], _, last => last
  | t :: rest, answer, last =>
    match g.providers.get (routingKey t) with
    | none => embedFailure g vars rest (fun i ↦ answer (i + 1)) last
    | some client =>
      match g.getApiKey vars t with
      | .error e => embedFailure g vars rest (fun i ↦ answer (i + 1)) (some (.key e))
      | .ok _ =>
        match client.embedResult (answer 0) with
        | .ok _ => none
        | .error e =>
          if embedFallsBack (.error e) then
            embedFailure g vars rest (fun i ↦ answer (i + 1)) (some (.provider e))
          else some (.provider e)

/-- What `embed` would return after a failure: 500 after a provider's error, and the key lookup's
503 only as long as no provider has failed since with more than having no embeddings. -/
structure ToldFor (last : Option EmbedFailure) (e : GatewayError) : Prop where
  status : e.statusCode = 500 ∨ e.statusCode = 503
  provider : ∀ err, last = some (.provider err) → (∀ operation, err ≠ .unsupported operation) →
    e.statusCode = 500

theorem ToldFor.status_eq_iff {e : GatewayError} {err : ProviderError}
    (h : ToldFor (some (.provider err)) e) :
    e.statusCode = err.toGatewayError.statusCode ↔ err.Opaque := by
  by_cases hunsupported : ∃ operation, err = .unsupported operation
  · obtain ⟨operation, rfl⟩ := hunsupported
    refine iff_of_false (fun heq ↦ ?_) id
    have h400 : e.statusCode = 400 := heq
    rcases h.status with h500 | h503 <;> omega
  · rw [h.provider err rfl (fun operation heq ↦ hunsupported ⟨operation, heq⟩), eq_comm]
    exact ProviderError.statusCode_eq_iff

/-- A turn in which the provider fails. -/
theorem ToldFor.afterEmbed {g : Gateway} {vars : String → Option String} {t : Target}
    {answer : Except ProviderError EmbeddingResponse} {last : Option EmbedFailure}
    {e : GatewayError} {client : ProviderClient} {key : String} {err : ProviderError}
    (h : ToldFor last e) (hclient : g.providers.get (routingKey t) = some client)
    (hkey : g.getApiKey vars t = .ok key) (hresult : client.embedResult answer = .error err) :
    ∃ e', g.afterEmbed vars t answer (.error e) = .error e' ∧
      ToldFor (some (.provider err)) e' := by
  simp only [Gateway.afterEmbed, hclient, hkey, hresult]
  by_cases hunsupported : ∃ operation, err = .unsupported operation
  · obtain ⟨operation, rfl⟩ := hunsupported
    refine ⟨e, rfl, h.status, fun err' herr' hne ↦ ?_⟩
    obtain rfl := EmbedFailure.provider.inj (Option.some.inj herr')
    exact absurd rfl (hne operation)
  · refine ⟨.provider err.display, ?_, .inl rfl, fun _ _ _ ↦ rfl⟩
    split
    · next heq => cases heq
    · next operation heq => exact absurd ⟨operation, Except.error.inj heq⟩ hunsupported
    · next heq => rw [Except.error.inj heq]

/-- The final failure and what the loop of `embed` returns for it. -/
theorem embedLoop_of_embedFailure {g : Gateway} {vars : String → Option String}
    {request : EmbeddingRequest} {targets : List Target}
    {answer : ℕ → Except ProviderError EmbeddingResponse} {last failure : Option EmbedFailure}
    {e : GatewayError} (h : ToldFor last e) (hsome : failure.isSome)
    (hfailure : g.embedFailure vars targets answer last = failure) :
    ∃ e', (g.embedLoop vars request targets answer (.error e)).result = .error e' ∧
      ToldFor failure e' := by
  induction targets generalizing answer last e with
  | nil => exact ⟨e, rfl, hfailure ▸ h⟩
  | cons t rest ih =>
    rw [embedFailure] at hfailure
    rw [embedLoop]
    rcases hclient : g.providers.get (routingKey t) with - | client
    · simp only [hclient] at hfailure
      simp only [visitEmbed, afterEmbed, hclient, if_true]
      exact ih h hfailure
    · simp only [hclient] at hfailure
      rcases hkey : g.getApiKey vars t with e' | key
      · simp only [hkey] at hfailure
        simp only [visitEmbed, afterEmbed, hclient, hkey, if_true]
        obtain ⟨message, rfl⟩ := getApiKey_error hkey
        exact ih ⟨.inr rfl, fun _ h ↦ (by cases h)⟩ hfailure
      · simp only [hkey] at hfailure
        rcases hresult : client.embedResult (answer 0) with err | response
        · simp only [hresult] at hfailure
          have hgoes :
              (g.visitEmbed vars request t (answer 0)).2 = embedFallsBack (.error err) := by
            simp only [visitEmbed, hclient, hkey, hresult]
            rfl
          obtain ⟨e', hafter, htold⟩ := h.afterEmbed hclient hkey hresult
          rw [hgoes, hafter]
          revert hfailure
          rcases embedFallsBack (.error err) with - | - <;> intro hfailure
          · exact ⟨e', rfl, hfailure ▸ htold⟩
          · exact ih htold hfailure
        · simp only [hresult] at hfailure
          rw [← hfailure] at hsome
          cases hsome

end Gateway

/-! ### The three paths -/

/-- One chat request, with the same outcome of every attempt on both of its paths and no entry in
the response cache, and one embedding request. -/
structure ThreePaths where
  gateway : Gateway
  env : RouteEnv
  auth : Option AuthContext
  remoteIp : Option String
  chat : ChatCompletionRequest
  embedding : EmbeddingRequest
  stream : ℕ → Trial ProviderStream
  answer : ℕ → Except ProviderError EmbeddingResponse
  sameFates : ∀ i, (stream i).fate = (env.trial i).fate
  missed : ∀ ctx, gateway.prepareRequest env.toRequestEnv chat auth remoteIp = .ok ctx →
    Gateway.cachedResponse env ctx.request auth = none

namespace ThreePaths

section Paths

variable (p : ThreePaths)

/-- What `route` returns. -/
def route : Except GatewayError ChatCompletionResponse :=
  (p.gateway.route p.env p.chat p.auth p.remoteIp).result

/-- What `route_stream` returns. -/
def routeStream : Except GatewayError GuardrailStream :=
  (p.gateway.routeStream ⟨p.env.toRequestEnv, p.stream⟩ p.auth p.chat p.remoteIp).result

/-- What `embed` returns. -/
def embed : Except GatewayError EmbeddingResponse :=
  (p.gateway.runEmbed p.embedding p.env.toRequestEnv p.auth p.answer).result

/-- `embed` comes to its loop, and the final failure there is this error of a provider. -/
structure EmbedFails (err : ProviderError) : Prop where
  limits : checkRateLimits p.env.limiter p.gateway.config p.auth = .ok ()
  model : checkRbacModel p.gateway.config p.auth p.embedding.model = .ok ()
  targets : p.gateway.targets.isEmpty = false
  failure : ∃ allowed, filterTargetsByRbac p.gateway.config p.auth p.gateway.targets = .ok allowed ∧
    p.gateway.embedFailure p.env.vars allowed p.answer none = some (.provider err)

/-- The chat paths tell the same status where both fail, and `embed` the status of the provider's
error it finally fails with. -/
structure SameStatus : Prop where
  chat : ∀ e₁ e₂, p.route = .error e₁ → p.routeStream = .error e₂ → e₁.statusCode = e₂.statusCode
  embedding : ∀ err e, p.EmbedFails err → p.embed = .error e →
    e.statusCode = err.toGatewayError.statusCode

/-- The loop of the chat paths does not end at a target without a client. -/
def EndsRegistered : Prop :=
  ∀ ctx ordered last,
    p.gateway.prepareRequest p.env.toRequestEnv p.chat p.auth p.remoteIp = .ok ctx →
      p.gateway.selectTargets p.env.selection ctx.request p.auth = .ok ordered →
        ¬p.gateway.EndsUnregistered p.env.vars ordered p.env.trial last

/-- What `embed` finally fails with is told as 500 in any case. -/
def EmbedsOpaquely : Prop := ∀ err, p.EmbedFails err → err.Opaque

end Paths

variable {p : ThreePaths}

/-- The loops of the two chat paths fail alike. -/
theorem streamFate (p : ThreePaths) (ctx : PluginContext) (ordered : List Target) :
    (p.gateway.failover p.env.vars (fun t client key ↦ ProviderCall.mk t client ctx.request key)
        ordered p.stream 0).map (fateOf ·.result) =
      (p.gateway.failover p.env.vars (fun t client key ↦ ProviderCall.mk t client ctx.request key)
        ordered p.env.trial 0).map (fateOf ·.result) :=
  Gateway.failover_fate p.sameFates 0 0

section Chat

variable {ctx : PluginContext} {ordered : List Target} {err : AttemptError}
  (hprepare : p.gateway.prepareRequest p.env.toRequestEnv p.chat p.auth p.remoteIp = .ok ctx)
  (hselect : p.gateway.selectTargets p.env.selection ctx.request p.auth = .ok ordered)

include hprepare hselect

theorem route_of_failover {e : FailoverEnd ChatCompletionResponse ProviderCall}
    (he : p.gateway.failover p.env.vars
      (fun t client key ↦ ProviderCall.mk t client ctx.request key) ordered p.env.trial 0 = some e)
    (herr : e.result = .error err) :
    p.route = .error err.flatten.toGatewayError := by
  have hanswer : p.gateway.answer p.env ctx.request p.auth =
      .ok ⟨e.target, .error err.flatten, e.latencyMs, e.calls⟩ := by
    rw [Gateway.answer_of_miss (p.missed ctx hprepare)]
    exact Gateway.fetch_eq_ok.2 ⟨ordered, hselect, e, he, by rw [herr]; rfl⟩
  rw [route, Gateway.route, hprepare]
  simp only [hanswer]
  rfl

theorem routeStream_of_failover {e : FailoverEnd ProviderStream ProviderCall}
    (he : p.gateway.failover p.env.vars
      (fun t client key ↦ ProviderCall.mk t client ctx.request key) ordered p.stream 0 = some e) :
    p.routeStream = match e.result with
      | .error err => .error err.toGatewayError
      | .ok stream => .ok (Gateway.wrapStream p.auth ctx.request e.target stream) := by
  rw [routeStream, Gateway.routeStream, hprepare]
  simp only [Gateway.openStream, hselect, he]
  rcases e.result with err | stream <;> rfl

/-- What the two chat paths return where the loop over the selected targets fails. -/
theorem chat_of_failover {e : FailoverEnd ChatCompletionResponse ProviderCall}
    (he : p.gateway.failover p.env.vars
      (fun t client key ↦ ProviderCall.mk t client ctx.request key) ordered p.env.trial 0 = some e)
    (herr : e.result = .error err) :
    p.route = .error err.flatten.toGatewayError ∧ p.routeStream = .error err.toGatewayError := by
  refine ⟨route_of_failover hprepare hselect he herr, ?_⟩
  have hfate := p.streamFate ctx ordered
  rw [he, Option.map_some, fateOf_eq_error.2 herr] at hfate
  obtain ⟨e', he', hresult⟩ := Option.map_eq_some_iff.1 hfate
  rw [routeStream_of_failover hprepare hselect he', fateOf_eq_error.1 hresult]

/-- A stream opens where the loop over the selected targets succeeds. -/
theorem stream_of_answer {e : FailoverEnd ChatCompletionResponse ProviderCall}
    {response : ChatCompletionResponse}
    (he : p.gateway.failover p.env.vars
      (fun t client key ↦ ProviderCall.mk t client ctx.request key) ordered p.env.trial 0 = some e)
    (hok : e.result = .ok response) :
    ∃ stream, p.routeStream = .ok stream := by
  have hfate := p.streamFate ctx ordered
  rw [he, Option.map_some, hok] at hfate
  obtain ⟨e', he', hresult⟩ := Option.map_eq_some_iff.1 hfate
  rw [routeStream_of_failover hprepare hselect he']
  rcases hr : e'.result with err | stream
  · rw [hr] at hresult
    cases hresult
  · exact ⟨_, rfl⟩

theorem eq_of_no_target (he : p.gateway.failover p.env.vars
      (fun t client key ↦ ProviderCall.mk t client ctx.request key) ordered p.env.trial 0 = none) :
    p.route = .error (.internal "No targets configured") ∧
      p.routeStream = .error (.internal "No targets configured") := by
  have hfate := p.streamFate ctx ordered
  rw [he, Option.map_none, Option.map_eq_none_iff] at hfate
  rw [route, routeStream, Gateway.route, Gateway.routeStream, hprepare]
  simp only [Gateway.answer_of_miss (p.missed ctx hprepare), Gateway.fetch, Gateway.openStream,
    hselect, he, hfate]
  trivial

end Chat

/-- Refused or left without targets, the two chat paths return one error. -/
theorem eq_of_refused (e : GatewayError)
    (h : p.gateway.prepareRequest p.env.toRequestEnv p.chat p.auth p.remoteIp = .error e ∨
      ∃ ctx, p.gateway.prepareRequest p.env.toRequestEnv p.chat p.auth p.remoteIp = .ok ctx ∧
        p.gateway.selectTargets p.env.selection ctx.request p.auth = .error e) :
    p.route = .error e ∧ p.routeStream = .error e := by
  rw [route, routeStream, Gateway.route, Gateway.routeStream]
  rcases h with hprepare | ⟨ctx, hprepare, hselect⟩
  · rw [hprepare]
    exact ⟨rfl, rfl⟩
  · rw [hprepare]
    simp only [Gateway.answer_of_miss (p.missed ctx hprepare), Gateway.fetch, Gateway.openStream,
      hselect]
    trivial

/-- The two chat paths agree exactly when their loop does not end at a target without a client. -/
theorem chat_iff : (∀ e₁ e₂, p.route = .error e₁ → p.routeStream = .error e₂ →
    e₁.statusCode = e₂.statusCode) ↔ p.EndsRegistered := by
  constructor
  · intro h ctx ordered last hprepare hselect hends
    have hfails : ∃ e err, p.gateway.failover p.env.vars
        (fun t client key ↦ ProviderCall.mk t client ctx.request key) ordered p.env.trial 0 =
          some e ∧ e.result = .error err := hends.exists_error 0
    obtain ⟨e, err, he, herr⟩ := hfails
    obtain ⟨hroute, hstream⟩ := chat_of_failover hprepare hselect he herr
    exact (Gateway.statusCode_failover_iff he herr).1 (h _ _ hroute hstream) ⟨last, hends⟩
  · intro h e₁ e₂ hroute hstream
    have hsame {e : GatewayError} (he : p.route = .error e ∧ p.routeStream = .error e) :
        e₁.statusCode = e₂.statusCode := by
      rw [← Except.error.inj (he.1.symm.trans hroute), ← Except.error.inj (he.2.symm.trans hstream)]
    rcases hprepare : p.gateway.prepareRequest p.env.toRequestEnv p.chat p.auth p.remoteIp
      with e | ctx
    · exact hsame (eq_of_refused e (.inl hprepare))
    · rcases hselect : p.gateway.selectTargets p.env.selection ctx.request p.auth with e | ordered
      · exact hsame (eq_of_refused e (.inr ⟨ctx, hprepare, hselect⟩))
      · rcases he : p.gateway.failover p.env.vars
          (fun t client key ↦ ProviderCall.mk t client ctx.request key) ordered p.env.trial 0
          with - | e
        · exact hsame (eq_of_no_target hprepare hselect he)
        · rcases herr : e.result with err | response
          · obtain ⟨hroute', hstream'⟩ := chat_of_failover hprepare hselect he herr
            rw [← Except.error.inj (hroute'.symm.trans hroute),
              ← Except.error.inj (hstream'.symm.trans hstream)]
            exact (Gateway.statusCode_failover_iff he herr).2 fun ⟨last, hends⟩ ↦
              h ctx ordered last hprepare hselect hends
          -- a stream opens where a completion succeeds
          · obtain ⟨stream, hopened⟩ := stream_of_answer hprepare hselect he herr
            rw [hopened] at hstream
            cases hstream

theorem embedding_iff : (∀ err e, p.EmbedFails err → p.embed = .error e →
    e.statusCode = err.toGatewayError.statusCode) ↔ p.EmbedsOpaquely := by
  have htold {err : ProviderError} (h : p.EmbedFails err) :
      ∃ e, p.embed = .error e ∧ Gateway.ToldFor (some (.provider err)) e := by
    obtain ⟨allowed, hallowed, hfailure⟩ := h.failure
    have hstart : Gateway.ToldFor none (.internal "No provider produced embeddings") :=
      ⟨.inl rfl, fun _ h ↦ (by cases h)⟩
    have hloop : ∃ e, (p.gateway.embedLoop p.env.vars p.embedding allowed p.answer
        (.error (.internal "No provider produced embeddings"))).result = .error e ∧
          Gateway.ToldFor (some (.provider err)) e :=
      Gateway.embedLoop_of_embedFailure hstart rfl hfailure
    obtain ⟨e, he, htold⟩ := hloop
    refine ⟨e, ?_, htold⟩
    simp only [embed, Gateway.runEmbed, h.limits, h.model, h.targets, hallowed]
    exact he
  constructor
  · intro h err hfails
    obtain ⟨e, he, htold⟩ := htold hfails
    exact htold.status_eq_iff.1 (h err e hfails he)
  · intro h err e hfails he
    obtain ⟨e', he', htold⟩ := htold hfails
    obtain rfl := Except.error.inj (he'.symm.trans he)
    exact htold.status_eq_iff.2 (h err hfails)

/-- **One failure has one status on the three paths exactly when** the loop of the chat paths does
not end at a target without a client, and `embed` fails with nothing but errors told as 500. -/
theorem sameStatus_iff (p : ThreePaths) : p.SameStatus ↔ p.EndsRegistered ∧ p.EmbedsOpaquely := by
  rw [← chat_iff, ← embedding_iff]
  exact ⟨fun h ↦ ⟨h.chat, h.embedding⟩, fun h ↦ ⟨h.1, h.2⟩⟩

/-- A gateway whose one target answers 429. -/
def rateLimitedUpstream : ThreePaths where
  gateway := (Gateway.new (fun _ ↦ none) .default).registerProvider (.compatible .openai)
  env := { RouteEnv.plain with
    toRequestEnv := { RequestEnv.plain with vars := fun _ ↦ some "sk-openai" }
    trial := fun _ ↦ ⟨true, .error (.rateLimited 30), 1⟩ }
  auth := none
  remoteIp := none
  chat := .ofMessages "gpt-4o" [.user "hello"]
  embedding := ⟨"text-embedding-3-large", .single "hello", none, none, none, .empty⟩
  stream := fun _ ↦ ⟨true, .error (.rateLimited 30), 1⟩
  answer := fun _ ↦ .error (.rateLimited 30)
  sameFates _ := rfl
  missed _ _ := Gateway.cachedResponse_of_cache_none rfl

theorem rateLimited_embeds_as_500 : ¬rateLimitedUpstream.SameStatus := by
  intro h
  have hfails : rateLimitedUpstream.EmbedFails (.rateLimited 30) :=
    ⟨rfl, rfl, rfl, _, rfl, rfl⟩
  exact absurd (h.embedding (.rateLimited 30) (.provider "rate limited, retry after 30s") hfails
    rfl) (by decide)

end ThreePaths

end Himadri
