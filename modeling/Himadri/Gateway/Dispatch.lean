import Himadri.Gateway.Config
import Himadri.Gateway.Failover
import Himadri.Gateway.RebuildSteps
import Himadri.Gateway.Startup
import Himadri.Transition.Sweep
import Himadri.Transition.System

/-!
# Where a target's key is sent

The requests `route`, `route_stream`, `embed` and the passthrough `proxy` send for a target carry
the key resolved for that target. Where they go is looked up elsewhere: in the client registered
under the target's routing key, or for the proxy in a table by the client's name. A target's own
endpoint is its `base_url` or, without one, what its provider is registered with (`ownBaseUrl`).

A client sends to the own endpoint of the target it was *registered for*, in every state that
startup, rebuilds and configuration changes lead to (`DispatchRun.attributed_invariant`). So a
request stays home exactly when that target and the one it is sent for have one endpoint, and a
proxied request when its target has a `base_url` or the table happens to know its provider.
-/

namespace Himadri

/-! ### What a call can send -/

/-- What is decided at a candidate of `with_failover` outside the gateway: whether its breaker
admits the attempt, and what the upstream answers. -/
structure Fate where
  admitted : Bool
  answer : Except ProviderError Unit

/-- Whether `embed` goes on to the next target. -/
def embedFallsBack : Except ProviderError Unit → Bool
  | .ok _ => false
  | .error (.unsupported _) => true
  | .error e => e.retryable

/-- The base URL `proxy` gives a target without one, by the name of the client. -/
def defaultProxyBaseUrl : String → String
  | "openai" => "https://api.openai.com/v1"
  | "anthropic" => "https://api.anthropic.com"
  | "gemini" => "https://generativelanguage.googleapis.com"
  | _ => "https://api.openai.com/v1"

/-- A request, and the target it is sent for. -/
abbrev Sent := Target × UpstreamRequest

namespace Gateway

variable (g : Gateway) (env : String → Option String)

section Failover

variable (op : ProviderClient → (key : String) → UpstreamRequest)

/-- One attempt of `with_failover`, from the provider lookup on. -/
def attempt (target : Target) (answer : Except ProviderError Unit) :
    AttemptOutcome Unit × Option Sent :=
  match g.providers.get (routingKey target) with
  | none => (.providerNotFound, none)
  | some client =>
    match g.getApiKey env target with
    | .error e => (.apiKey e, none)
    | .ok key => (.executed answer, some (target, op client key))

/-- One turn of the loop of `with_failover`. -/
def visitCandidate (target : Target) (fate : Fate) : Option Sent × Bool :=
  if fate.admitted then
    ((g.attempt env op target fate.answer).2, (g.attempt env op target fate.answer).1.fallsBack)
  else (none, true)

/-- `Gateway::with_failover`, as far as the requests it sends. -/
def withFailover (ordered : List Target) (fate : ℕ → Fate) : List Sent :=
  Sweep.run (g.visitCandidate env op) ordered fate

end Failover

/-- One turn of the loop of `embed`. -/
def visitEmbedding (target : Target) (answer : Except ProviderError Unit) : Option Sent × Bool :=
  match g.providers.get (routingKey target) with
  | none => (none, true)
  | some client =>
    match g.getApiKey env target with
    | .error _ => (none, true)
    | .ok key =>
      match client.embed key with
      | .ok request => (some (target, request), embedFallsBack answer)
      | .error e => (none, embedFallsBack (.error e))

/-- `Gateway::embed`, as far as the requests it sends. -/
def embed (allowed : List Target) (answer : ℕ → Except ProviderError Unit) : List Sent :=
  Sweep.run (g.visitEmbedding env) allowed answer

/-- `Gateway::proxy`, as far as the request it sends; `isMethod` is
`reqwest::Method::from_str(..).is_ok()`. -/
def proxy (isMethod : String → Bool) (method path : String) : Except GatewayError Sent :=
  match g.targets.head? with
  | none => .error (.internal "No targets configured for proxy")
  | some target =>
    match g.providers.get (routingKey target) with
    | none => .error (.providerNotFound target.provider)
    | some client =>
      match g.getApiKey env target with
      | .error e => .error e
      | .ok key =>
        if isMethod method then
          .ok (target,
            { baseUrl :=
                Text.trimEndMatches '/' (target.baseUrl.getD (defaultProxyBaseUrl client.name))
              path := path
              key := key })
        else .error (.badRequest ("Invalid method: " ++ method))

/-- The client and the key a request for the target is made of. -/
structure Resolves (target : Target) (client : ProviderClient) (key : String) : Prop where
  client : g.providers.get (routingKey target) = some client
  key : g.getApiKey env target = .ok key

variable {g env}

theorem exists_visitCandidate_iff {op : ProviderClient → String → UpstreamRequest} {target : Target}
    {sent : Sent} :
    (∃ fate, (g.visitCandidate env op target fate).1 = some sent) ↔
      ∃ client key, g.Resolves env target client key ∧ sent = (target, op client key) := by
  constructor
  · rintro ⟨fate, hsent⟩
    rw [visitCandidate] at hsent
    split at hsent
    · rw [attempt] at hsent
      split at hsent
      · cases hsent
      · next client hclient =>
        split at hsent
        · cases hsent
        · next key hkey => exact ⟨client, key, ⟨hclient, hkey⟩, (Option.some.inj hsent).symm⟩
    · cases hsent
  · rintro ⟨client, key, ⟨hclient, hkey⟩, rfl⟩
    refine ⟨⟨true, .ok ()⟩, ?_⟩
    rw [visitCandidate, if_pos rfl, attempt, hclient, hkey]

/-- What `with_failover` can send for an ordered list. -/
theorem exists_mem_withFailover_iff {op : ProviderClient → String → UpstreamRequest}
    {ordered : List Target} {sent : Sent} :
    (∃ fate, sent ∈ g.withFailover env op ordered fate) ↔
      ∃ target ∈ ordered, ∃ client key,
        g.Resolves env target client key ∧ sent = (target, op client key) := by
  -- a breaker that does not admit passes the candidate over
  have hpass : ∀ target ∈ ordered, ∃ fate, (g.visitCandidate env op target fate).2 = true :=
    fun target _ ↦ ⟨⟨false, .ok ()⟩, rfl⟩
  refine (Sweep.exists_mem_run_iff hpass).trans (exists_congr fun target ↦ ?_)
  exact and_congr_right fun _ ↦ exists_visitCandidate_iff

theorem exists_visitEmbedding_iff {target : Target} {sent : Sent} :
    (∃ answer, (g.visitEmbedding env target answer).1 = some sent) ↔
      ∃ client key, g.Resolves env target client key ∧ client.offersEmbeddings ∧
        sent = (target, ⟨Text.trimEndMatches '/' client.baseUrl, "/embeddings", key⟩) := by
  constructor
  · rintro ⟨answer, hsent⟩
    rw [visitEmbedding] at hsent
    split at hsent
    · cases hsent
    · next client hclient =>
      split at hsent
      · cases hsent
      · next key hkey =>
        split at hsent
        · next request hembed =>
          obtain ⟨hoffers, rfl⟩ := ProviderClient.embed_eq_ok_iff.1 hembed
          exact ⟨client, key, ⟨hclient, hkey⟩, hoffers, (Option.some.inj hsent).symm⟩
        · cases hsent
  · rintro ⟨client, key, ⟨hclient, hkey⟩, hoffers, rfl⟩
    refine ⟨.ok (), ?_⟩
    simp only [visitEmbedding, hclient, hkey, ProviderClient.embed_eq_ok_iff.2 ⟨hoffers, rfl⟩]

/-- An upstream that cannot be reached passes the target over, and so does every other way not to
answer. -/
theorem visitEmbedding_unreachable (target : Target) :
    (g.visitEmbedding env target (.error (.network ""))).2 = true := by
  rw [visitEmbedding]
  cases g.providers.get (routingKey target) with
  | none => rfl
  | some client =>
    cases g.getApiKey env target with
    | error e => rfl
    | ok key => cases client <;> rfl

/-- What `embed` can send. -/
theorem exists_mem_embed_iff {allowed : List Target} {sent : Sent} :
    (∃ answer, sent ∈ g.embed env allowed answer) ↔
      ∃ target ∈ allowed, ∃ client key, g.Resolves env target client key ∧
        client.offersEmbeddings ∧
          sent = (target, ⟨Text.trimEndMatches '/' client.baseUrl, "/embeddings", key⟩) := by
  refine (Sweep.exists_mem_run_iff fun target _ ↦ ⟨_, visitEmbedding_unreachable target⟩).trans
    (exists_congr fun target ↦ ?_)
  exact and_congr_right fun _ ↦ exists_visitEmbedding_iff

/-- What `proxy` sends. -/
theorem proxy_eq_ok_iff {isMethod : String → Bool} {method path : String} {sent : Sent} :
    g.proxy env isMethod method path = .ok sent ↔
      isMethod method ∧ ∃ target ∈ g.targets.head?, ∃ client key, g.Resolves env target client key ∧
        sent = (target, ⟨Text.trimEndMatches '/'
          (target.baseUrl.getD (defaultProxyBaseUrl client.name)), path, key⟩) := by
  constructor
  · intro h
    rw [proxy] at h
    split at h
    · cases h
    · next target htarget =>
      split at h
      · cases h
      · next client hclient =>
        split at h
        · cases h
        · next key hkey =>
          split at h
          · next hmethod =>
            exact ⟨hmethod, target, htarget, client, key, ⟨hclient, hkey⟩, (Except.ok.inj h).symm⟩
          · cases h
  · rintro ⟨hmethod, target, htarget, client, key, ⟨hclient, hkey⟩, rfl⟩
    rw [Option.mem_def] at htarget
    simp only [proxy, htarget, hclient, hkey, hmethod, if_true]

end Gateway

/-! ### Own endpoints -/

/-- What a base URL is taken to name. It can be as fine as the URL up to its padding, or as coarse
as its host. -/
structure EndpointReading (ε : Type*) where
  locate : String → Option ε
  /-- A path alone is no URL, and nothing is sent there. -/
  locate_empty : locate "" = none
  locate_trim : ∀ url, locate (Text.trim url) = locate url
  locate_trimEndMatches : ∀ url, locate (Text.trimEndMatches '/' url) = locate url

namespace EndpointReading

/-- The finest reading: the URL without its padding. -/
def url : EndpointReading String where
  locate url := if (Text.trimUrl url).isEmpty then none else some (Text.trimUrl url)
  locate_empty := rfl
  locate_trim url := by rw [Text.trimUrl_trim]
  locate_trimEndMatches url := by rw [Text.trimUrl_trimEndMatches]

variable {ε : Type*} (reading : EndpointReading ε)

/-- If anything is sent to `base`, it arrives at `own`. -/
def Within (base own : Option String) : Prop :=
  ∀ e, base.bind reading.locate = some e → own.bind reading.locate = some e

theorem within_refl (base : Option String) : reading.Within base base := fun _ h ↦ h

theorem within_trimEndMatches_iff {url : String} {own : Option String} :
    reading.Within (some (Text.trimEndMatches '/' url)) own ↔ reading.Within (some url) own := by
  rw [Within, Within, Option.bind_some, Option.bind_some, reading.locate_trimEndMatches]

end EndpointReading

section Endpoint

variable (env : String → Option String) (source : ProviderSource)

/-- A target's own endpoint: its base URL, or what its provider is registered with. That is the
environment's registration for the targets of a configuration and the registry's for those of
database endpoints, which carry an id. -/
def ownBaseUrl (target : Target) : Option String :=
  match MapProviderRegistry.normalizeBaseUrl target.baseUrl with
  | some baseUrl => some baseUrl
  | none =>
    match target.id, (startupClients env source).get target.provider with
    | none, some client => some client.baseUrl
    | _, _ => (buildProviderRegistry.build target.provider none).toOption.map ProviderClient.baseUrl

variable {env source}

theorem ownBaseUrl_of_startupClients {name : String} {client : ProviderClient}
    (h : (startupClients env source).get name = some client) :
    ownBaseUrl env source (.ofProvider name) = some client.baseUrl := by
  simp only [ownBaseUrl, Target.ofProvider, MapProviderRegistry.normalizeBaseUrl, Option.map_none,
    Option.filter_none, h]

/-- The client of a row sends to the own endpoint of the row's target. -/
theorem ownBaseUrl_target {row : BuiltRow}
    (h : buildProviderRegistry.build row.endpoint.providerType row.endpoint.baseUrl =
      .ok row.client) :
    ownBaseUrl env source row.target = some row.client.baseUrl ∧
      row.client.name = row.target.provider := by
  obtain ⟨hname, hbase⟩ := honest_buildProviderRegistry.build h
  refine ⟨?_, hname⟩
  split at hbase
  · next url hurl =>
    simp only [ownBaseUrl, BuiltRow.target, hurl]
    exact congrArg some hbase.symm
  · next hurl =>
    simp only [ownBaseUrl, BuiltRow.target, hurl]
    exact congrArg (fun r ↦ (Except.toOption r).map ProviderClient.baseUrl) hbase

/-- The base URL of a target that has one leads to its own endpoint, and a blank one nowhere. -/
theorem within_ownBaseUrl {ε : Type*} (reading : EndpointReading ε) {target : Target}
    {baseUrl : String} (h : target.baseUrl = some baseUrl) :
    reading.Within (some baseUrl) (ownBaseUrl env source target) := by
  intro e he
  rw [Option.bind_some] at he
  by_cases hblank : (Text.trim baseUrl).isEmpty
  · rw [← reading.locate_trim, String.isEmpty_iff.1 hblank, reading.locate_empty] at he
    cases he
  · have hown : ownBaseUrl env source target = some (Text.trim baseUrl) := by
      have hkept :
          MapProviderRegistry.normalizeBaseUrl target.baseUrl = some (Text.trim baseUrl) := by
        rw [h, MapProviderRegistry.normalizeBaseUrl, Option.map_some, Option.filter_some]
        simp [hblank]
      rw [ownBaseUrl, hkept]
    rw [hown, Option.bind_some, reading.locate_trim]
    exact he

end Endpoint

/-! ### Runs of whole calls -/

/-- One admin operation. -/
inductive DispatchOp
  | rebuild (models : List Model) (endpoints : List ModelEndpoint) (onEmpty : OnEmpty)
  | reload (config : Config)
  | rollback (version : ℕ)

/-- The gateway, and beside it the target each client was last registered for. -/
structure DispatchRun where
  gateway : Gateway
  origins : KeyMap String Target

namespace DispatchRun

variable (regexNew : String → Option Regex) (env : String → Option String)
  (source : ProviderSource)

/-- A gateway after `build_gateway`. -/
def boot (config : Config) : DispatchRun where
  gateway := buildGateway env regexNew source config
  origins := (startupClients env source).mapValues fun client ↦ .ofProvider client.name

/-- One whole call. -/
def step (s : DispatchRun) : DispatchOp → DispatchRun
  | .rebuild models endpoints onEmpty =>
    { gateway := (s.gateway.rebuildTargetsFromDb buildProviderRegistry models endpoints onEmpty).1
      origins :=
        s.origins.insertAll ((buildRows buildProviderRegistry models endpoints).map fun row ↦
          (row.endpoint.id, row.target)) }
  | .reload config => { s with gateway := (s.gateway.reloadConfig regexNew config).1 }
  | .rollback version => { s with gateway := (s.gateway.rollbackConfig regexNew version).1 }

/-- Startup, and any sequence of rebuilds and configuration changes. -/
def runs : TransitionSystem DispatchRun DispatchOp :=
  .ofPartial (fun s ↦ ∃ config, s = boot regexNew env source config) fun s op ↦
    some (s.step regexNew op)

/-- Every client sends to the own endpoint of the target it was registered for. -/
def Attributed (s : DispatchRun) : Prop :=
  KeyMap.Linked
    (fun _ client origin ↦
      ownBaseUrl env source origin = some client.baseUrl ∧ client.name = origin.provider)
    s.gateway.providers s.origins

variable {regexNew env source} {s : DispatchRun}

theorem attributed_boot (config : Config) :
    (boot regexNew env source config).Attributed env source := by
  intro name client hget
  rw [boot, buildGateway_eq] at hget
  refine ⟨.ofProvider client.name, ?_, ?_, rfl⟩
  · show (((startupClients env source).get name).map fun client ↦ Target.ofProvider client.name) = _
    rw [show (startupClients env source).get name = some client from hget]
    rfl
  · refine ownBaseUrl_of_startupClients ?_
    rw [name_of_get_startupClients hget]
    exact hget

theorem Attributed.rebuild (h : s.Attributed env source) {models : List Model}
    {endpoints : List ModelEndpoint} {onEmpty : OnEmpty} :
    (s.step regexNew (.rebuild models endpoints onEmpty)).Attributed env source := by
  let rows := buildRows buildProviderRegistry models endpoints
  have hrows : ∀ row ∈ rows, ownBaseUrl env source row.target = some row.client.baseUrl ∧
      row.client.name = row.target.provider :=
    fun row hrow ↦ ownBaseUrl_target (mem_buildRows hrow).2.2.2.2.2
  have hregistered : KeyMap.Linked _ (s.gateway.registerClients rows).providers
      (s.origins.insertAll (rows.map fun row ↦ (row.endpoint.id, row.target))) :=
    KeyMap.Linked.insertAll h hrows
  rw [Attributed, step, Gateway.rebuildTargetsFromDb_fst]
  cases hkeep : Gateway.keepsPrevious rows onEmpty with
  | true =>
    rw [Gateway.rebuildRows_kept hkeep]
    exact hregistered
  | false =>
    rw [Gateway.rebuildRows_applied hkeep]
    exact hregistered.removeAll _

/-- **Clients stay attributed through rebuilds and configuration changes.** -/
theorem attributed_invariant :
    (runs regexNew env source).Invariant (Attributed env source) where
  init s hs := by
    obtain ⟨config, rfl⟩ := hs
    exact attributed_boot config
  step s op s' h hstep := by
    obtain rfl := Option.some.inj hstep
    cases op with
    | rebuild models endpoints onEmpty => exact h.rebuild
    | reload config =>
      show KeyMap.Linked _ (s.gateway.applyAndRecord regexNew config none).1.providers s.origins
      rw [Gateway.providers_applyAndRecord]
      exact h
    | rollback version =>
      show KeyMap.Linked _ (s.gateway.rollbackConfig regexNew version).1.providers s.origins
      rw [Gateway.providers_rollbackConfig]
      exact h

end DispatchRun

/-! ### Staying home -/

/-- A request to the gateway: the model and the ordered candidates of `route` and `route_stream`,
the permitted targets of `embed`, the method and the path of `proxy`. -/
inductive DispatchCall
  | route (model : String) (ordered : List Target)
  | routeStream (model : String) (ordered : List Target)
  | embed (allowed : List Target)
  | proxy (method path : String)

/-- The call can send this. -/
def DispatchCall.Sends (g : Gateway) (env : String → Option String) (isMethod : String → Bool) :
    DispatchCall → Sent → Prop
  | .route model ordered, sent =>
    ∃ fate, sent ∈ g.withFailover env (fun client key ↦ client.complete model key) ordered fate
  | .routeStream model ordered, sent =>
    ∃ fate,
      sent ∈ g.withFailover env (fun client key ↦ client.completeStream model key) ordered fate
  | .embed allowed, sent => ∃ answer, sent ∈ g.embed env allowed answer
  | .proxy method path, sent => g.proxy env isMethod method path = .ok sent

/-- The candidates of a call other than `proxy`. -/
def DispatchCall.candidates : DispatchCall → Option (List Target)
  | .route _ ordered | .routeStream _ ordered => some ordered
  | .embed allowed => some allowed
  | .proxy _ _ => none

namespace DispatchRun

variable {ε : Type*} (reading : EndpointReading ε) (env : String → Option String)
  (source : ProviderSource) (isMethod : String → Bool)

/-- A request that carries a key goes to the own endpoint of the target it is sent for. -/
def StaysHome (sent : Sent) : Prop :=
  sent.2.key ≠ "" → reading.Within (some sent.2.baseUrl) (ownBaseUrl env source sent.1)

/-- A request for the target would carry a key, and be sent by a client registered for `origin`. -/
structure Keyed (s : DispatchRun) (target : Target) (client : ProviderClient) (origin : Target) :
    Prop where
  client : s.gateway.providers.get (routingKey target) = some client
  origin : s.origins.get (routingKey target) = some origin
  key : ∃ key, s.gateway.getApiKey env target = .ok key ∧ key ≠ ""

/-- Every client a call sends a key by was registered for the own endpoint of the target the key is
for; a proxied target has a base URL, or the proxy's table knows its provider. -/
def Covered (s : DispatchRun) : DispatchCall → Prop
  | .route _ ordered | .routeStream _ ordered =>
    ∀ target ∈ ordered, ∀ client origin, s.Keyed env target client origin →
      reading.Within (ownBaseUrl env source origin) (ownBaseUrl env source target)
  | .embed allowed =>
    ∀ target ∈ allowed, ∀ client origin, s.Keyed env target client origin →
      client.offersEmbeddings →
        reading.Within (ownBaseUrl env source origin) (ownBaseUrl env source target)
  | .proxy method _ =>
    isMethod method → ∀ target ∈ s.gateway.targets.head?, target.baseUrl = none →
      ∀ client origin, s.Keyed env target client origin →
        reading.Within (some (defaultProxyBaseUrl origin.provider)) (ownBaseUrl env source target)

variable {reading env source isMethod} {s : DispatchRun} {target : Target}

theorem Attributed.of_keyed (h : s.Attributed env source) {client : ProviderClient}
    {origin : Target} (hkeyed : s.Keyed env target client origin) :
    ownBaseUrl env source origin = some client.baseUrl ∧ client.name = origin.provider := by
  obtain ⟨origin', horigin, hattr⟩ := h _ _ hkeyed.client
  obtain rfl := Option.some.inj (hkeyed.origin.symm.trans horigin)
  exact hattr

/-- A key is resolved for a client exactly when the client was registered for some target. -/
theorem Attributed.forall_resolves_iff (h : s.Attributed env source) {P : ProviderClient → Prop} :
    (∀ client key, s.gateway.Resolves env target client key → key ≠ "" → P client) ↔
      ∀ client origin, s.Keyed env target client origin → P client := by
  constructor
  · intro hall client origin hkeyed
    obtain ⟨key, hkey, hne⟩ := hkeyed.key
    exact hall client key ⟨hkeyed.client, hkey⟩ hne
  · intro hall client key hres hne
    obtain ⟨origin, horigin, -⟩ := h _ _ hres.client
    exact hall client origin ⟨hres.client, horigin, key, hres.key, hne⟩

/-- The typed calls with failover. -/
theorem Attributed.staysHome_withFailover_iff (h : s.Attributed env source)
    {op : ProviderClient → String → UpstreamRequest}
    (hbase : ∀ client key, (op client key).baseUrl = client.baseUrl)
    (hkey : ∀ client key, (op client key).key = key) {ordered : List Target} :
    (∀ sent, (∃ fate, sent ∈ s.gateway.withFailover env op ordered fate) →
        StaysHome reading env source sent) ↔
      ∀ target ∈ ordered, ∀ client origin, s.Keyed env target client origin →
        reading.Within (ownBaseUrl env source origin) (ownBaseUrl env source target) := by
  have hsent : (∀ sent, (∃ fate, sent ∈ s.gateway.withFailover env op ordered fate) →
      StaysHome reading env source sent) ↔
        ∀ target ∈ ordered, ∀ client key, s.gateway.Resolves env target client key → key ≠ "" →
          reading.Within (some client.baseUrl) (ownBaseUrl env source target) := by
    constructor
    · intro hall target hmem client key hres hne
      have hhome := hall (target, op client key)
        (Gateway.exists_mem_withFailover_iff.2 ⟨target, hmem, client, key, hres, rfl⟩)
      rw [StaysHome, hbase, hkey] at hhome
      exact hhome hne
    · intro hall sent hsent
      obtain ⟨target, hmem, client, key, hres, rfl⟩ := Gateway.exists_mem_withFailover_iff.1 hsent
      rw [StaysHome, hbase, hkey]
      exact hall target hmem client key hres
  refine hsent.trans (forall₂_congr fun target _ ↦ h.forall_resolves_iff.trans ?_)
  refine forall_congr' fun client ↦ forall₂_congr fun origin hkeyed ↦ ?_
  rw [(h.of_keyed hkeyed).1]

theorem Attributed.staysHome_embed_iff (h : s.Attributed env source) {allowed : List Target} :
    (∀ sent, (∃ answer, sent ∈ s.gateway.embed env allowed answer) →
        StaysHome reading env source sent) ↔
      ∀ target ∈ allowed, ∀ client origin, s.Keyed env target client origin →
        client.offersEmbeddings →
          reading.Within (ownBaseUrl env source origin) (ownBaseUrl env source target) := by
  have hsent : (∀ sent, (∃ answer, sent ∈ s.gateway.embed env allowed answer) →
      StaysHome reading env source sent) ↔
        ∀ target ∈ allowed, ∀ client key, s.gateway.Resolves env target client key → key ≠ "" →
          client.offersEmbeddings →
            reading.Within (some client.baseUrl) (ownBaseUrl env source target) := by
    constructor
    · intro hall target hmem client key hres hne hoffers
      have hhome := hall _
        (Gateway.exists_mem_embed_iff.2 ⟨target, hmem, client, key, hres, hoffers, rfl⟩)
      exact reading.within_trimEndMatches_iff.1 (hhome hne)
    · intro hall sent hsent
      obtain ⟨target, hmem, client, key, hres, hoffers, rfl⟩ :=
        Gateway.exists_mem_embed_iff.1 hsent
      exact fun hne ↦
        reading.within_trimEndMatches_iff.2 (hall target hmem client key hres hne hoffers)
  refine hsent.trans (forall₂_congr fun target _ ↦ h.forall_resolves_iff.trans ?_)
  refine forall_congr' fun client ↦ forall₂_congr fun origin hkeyed ↦ ?_
  rw [(h.of_keyed hkeyed).1]

theorem Attributed.staysHome_proxy_iff (h : s.Attributed env source) {method path : String} :
    (∀ sent, s.gateway.proxy env isMethod method path = .ok sent →
        StaysHome reading env source sent) ↔
      (isMethod method → ∀ target ∈ s.gateway.targets.head?, target.baseUrl = none →
        ∀ client origin, s.Keyed env target client origin →
          reading.Within (some (defaultProxyBaseUrl origin.provider))
            (ownBaseUrl env source target)) := by
  have hsent : (∀ sent, s.gateway.proxy env isMethod method path = .ok sent →
      StaysHome reading env source sent) ↔
        (isMethod method → ∀ target ∈ s.gateway.targets.head?, target.baseUrl = none →
          ∀ client key, s.gateway.Resolves env target client key → key ≠ "" →
            reading.Within (some (defaultProxyBaseUrl client.name))
              (ownBaseUrl env source target)) := by
    constructor
    · intro hall hmethod target hmem hnone client key hres hne
      have hhome := hall _
        (Gateway.proxy_eq_ok_iff.2 ⟨hmethod, target, hmem, client, key, hres, rfl⟩)
      rw [StaysHome, hnone] at hhome
      exact reading.within_trimEndMatches_iff.1 (hhome hne)
    · intro hall sent hsent hne
      obtain ⟨hmethod, target, hmem, client, key, hres, rfl⟩ := Gateway.proxy_eq_ok_iff.1 hsent
      refine reading.within_trimEndMatches_iff.2 ?_
      -- a target with a base URL of its own is proxied to it
      cases hbase : target.baseUrl with
      | none => exact hall hmethod target hmem hbase client key hres hne
      | some baseUrl => exact within_ownBaseUrl reading hbase
  refine hsent.trans (forall_congr' fun _ ↦ forall₂_congr fun target _ ↦ forall_congr' fun _ ↦
    h.forall_resolves_iff.trans ?_)
  refine forall_congr' fun client ↦ forall₂_congr fun origin hkeyed ↦ ?_
  rw [(h.of_keyed hkeyed).2]

theorem Attributed.staysHome_iff_covered (h : s.Attributed env source) (call : DispatchCall) :
    (∀ sent, call.Sends s.gateway env isMethod sent → StaysHome reading env source sent) ↔
      s.Covered reading env source isMethod call := by
  cases call with
  | route model ordered =>
    exact h.staysHome_withFailover_iff (fun _ _ ↦ ProviderClient.complete_baseUrl ..)
      fun _ _ ↦ ProviderClient.complete_key ..
  | routeStream model ordered =>
    exact h.staysHome_withFailover_iff (fun _ _ ↦ ProviderClient.completeStream_baseUrl ..)
      fun _ _ ↦ ProviderClient.completeStream_key ..
  | embed allowed => exact h.staysHome_embed_iff
  | proxy method path => exact h.staysHome_proxy_iff

/-! ### Which targets are covered -/

/-- A call with failover is covered when its candidates and the targets their clients were
registered for have one endpoint. -/
theorem covered_of_origins {call : DispatchCall} {targets : List Target}
    (hcall : call.candidates = some targets)
    (h : ∀ target ∈ targets, ∀ origin, s.origins.get (routingKey target) = some origin →
      ownBaseUrl env source origin = ownBaseUrl env source target) :
    s.Covered reading env source isMethod call := by
  have hwithin : ∀ target ∈ targets, ∀ client origin, s.Keyed env target client origin →
      reading.Within (ownBaseUrl env source origin) (ownBaseUrl env source target) := by
    intro target hmem client origin hkeyed
    rw [h target hmem origin hkeyed.origin]
    exact reading.within_refl _
  cases call with
  | route model ordered =>
    obtain rfl := Option.some.inj hcall
    exact hwithin
  | routeStream model ordered =>
    obtain rfl := Option.some.inj hcall
    exact hwithin
  | embed allowed =>
    obtain rfl := Option.some.inj hcall
    exact fun target hmem client origin hkeyed _ ↦ hwithin target hmem client origin hkeyed
  | proxy method path => cases hcall

section Pushed

variable {regexNew : String → Option Regex} {models : List Model} {endpoints : List ModelEndpoint}
  {onEmpty : OnEmpty}

/-- After a rebuild that applies, the clients of the live targets were registered for these very
targets. -/
theorem origins_of_rebuild
    (happly :
      Gateway.keepsPrevious (buildRows buildProviderRegistry models endpoints) onEmpty = false)
    (hnodup : (activeIds (buildRows buildProviderRegistry models endpoints)).Nodup)
    (hmem : target ∈ (s.step regexNew (.rebuild models endpoints onEmpty)).gateway.targets) :
    (s.step regexNew (.rebuild models endpoints onEmpty)).origins.get (routingKey target) =
      some target := by
  rw [step, Gateway.rebuildTargetsFromDb_fst, Gateway.rebuildRows_applied happly] at hmem
  obtain ⟨row, hrow, rfl⟩ := List.mem_map.1 hmem
  have hwritten : row.endpoint.id ∈ ((buildRows buildProviderRegistry models endpoints).map
      fun row ↦ (row.endpoint.id, row.target)).map Prod.fst := by
    rw [List.map_map]
    exact List.mem_map_of_mem (f := fun row : BuiltRow ↦ row.endpoint.id) hrow
  obtain ⟨origin, hentry, hget⟩ := KeyMap.get_insertAll_of_mem (m := s.origins) hwritten
  obtain ⟨row', hrow', heq⟩ := List.mem_map.1 hentry
  obtain ⟨hid, rfl⟩ := Prod.mk.inj heq
  obtain rfl := row_unique hnodup hrow' hrow hid
  exact hget

/-- **The keys of database endpoints stay home on every call but `proxy`.** -/
theorem pushed_keys_stay_home (hs : (runs regexNew env source).Reachable s)
    (happly :
      Gateway.keepsPrevious (buildRows buildProviderRegistry models endpoints) onEmpty = false)
    (hnodup : (activeIds (buildRows buildProviderRegistry models endpoints)).Nodup)
    {call : DispatchCall} {targets : List Target} (hcall : call.candidates = some targets)
    (hlive : targets ⊆ (s.step regexNew (.rebuild models endpoints onEmpty)).gateway.targets)
    {sent : Sent}
    (hsent : call.Sends (s.step regexNew (.rebuild models endpoints onEmpty)).gateway env isMethod
      sent) : StaysHome reading env source sent := by
  have h : (s.step regexNew (.rebuild models endpoints onEmpty)).Attributed env source :=
    (attributed_invariant.of_reachable hs).rebuild
  refine (h.staysHome_iff_covered call).2
    (covered_of_origins hcall fun target hmem origin hget ↦ ?_)
    sent hsent
  rw [origins_of_rebuild happly hnodup (hlive hmem)] at hget
  rw [Option.some.inj hget]

end Pushed

section Unset

variable (env source)

/-- No endpoint is given the name of a client of the environment. -/
def SparesNames (_ : DispatchRun) : DispatchOp → Prop
  | .rebuild _ endpoints _ => ∀ e ∈ endpoints, ¬ (startupClients env source).containsKey e.id
  | _ => True

/-- The clients of the environment stay registered for their providers. -/
def KeepsNames (s : DispatchRun) : Prop :=
  ∀ name, (startupClients env source).containsKey name →
    s.origins.get name = some (.ofProvider name)

variable {env source} {regexNew : String → Option Regex}

theorem keepsNames_invariant :
    ((runs regexNew env source).guard (SparesNames env source)).Invariant
      (KeepsNames env source) where
  init s hs name hname := by
    obtain ⟨config, rfl⟩ := hs
    obtain ⟨client, hclient⟩ := KeyMap.containsKey_iff.1 hname
    show (((startupClients env source).get name).map fun client ↦ Target.ofProvider client.name) = _
    rw [hclient, Option.map_some, name_of_get_startupClients hclient]
  step s op s' h hstep name hname := by
    obtain ⟨hstep, hok⟩ := hstep
    obtain rfl := Option.some.inj hstep
    cases op with
    | rebuild models endpoints onEmpty =>
      refine (KeyMap.get_insertAll_of_notMem fun hmem ↦ ?_).trans (h name hname)
      -- a row under the name would be an endpoint with it
      rw [List.map_map] at hmem
      obtain ⟨row, hrow, rfl⟩ := List.mem_map.1 hmem
      exact hok _ (mem_buildRows hrow).2.2.1 hname
    | reload config => exact h name hname
    | rollback version => exact h name hname

theorem ownBaseUrl_of_unset (hid : target.id = none)
    (hunset : MapProviderRegistry.normalizeBaseUrl target.baseUrl = none) :
    ownBaseUrl env source (.ofProvider target.provider) = ownBaseUrl env source target := by
  rw [ownBaseUrl, ownBaseUrl, hunset, hid]
  rfl

/-- **So do those of configured targets that name a registered provider and no base URL.** -/
theorem unset_keys_stay_home
    (hs : ((runs regexNew env source).guard (SparesNames env source)).Reachable s)
    {call : DispatchCall}
    {targets : List Target} (hcall : call.candidates = some targets)
    (hunset : ∀ target ∈ targets, target.id = none ∧
      MapProviderRegistry.normalizeBaseUrl target.baseUrl = none ∧
        (startupClients env source).containsKey target.provider)
    {sent : Sent} (hsent : call.Sends s.gateway env isMethod sent) :
    StaysHome reading env source sent := by
  have h : s.Attributed env source := attributed_invariant.of_reachable hs.of_guard
  refine (h.staysHome_iff_covered call).2
    (covered_of_origins hcall fun target hmem origin hget ↦ ?_)
    sent hsent
  obtain ⟨hid, hbase, hname⟩ := hunset target hmem
  rw [routingKey, hid, Option.getD_none, keepsNames_invariant.of_reachable hs _ hname] at hget
  rw [← Option.some.inj hget]
  exact ownBaseUrl_of_unset hid hbase

end Unset

/-! ### When keys stay home -/

/-- **A call keeps keys at home if and only if it is covered**, in every state that startup,
rebuilds and configuration changes lead to. -/
theorem keys_stay_home_iff {regexNew : String → Option Regex}
    (hs : (runs regexNew env source).Reachable s) (call : DispatchCall) :
    (∀ sent, call.Sends s.gateway env isMethod sent → StaysHome reading env source sent) ↔
      s.Covered reading env source isMethod call :=
  (attributed_invariant.of_reachable hs).staysHome_iff_covered call

/-! ### Two OpenAI upstreams, and Groq -/

/-- The environment of the runs below: one key. -/
def oneKeyEnv (name : String) : Option String :=
  if name == "OPENAI_API_KEY" then some "sk-1" else none

/-- A configured target on OpenAI's key with a base URL of its own. -/
def openAiAt (baseUrl : String) : Target :=
  { Target.ofProvider "openai" with
    apiKeyEnv := some "OPENAI_API_KEY"
    baseUrl := some baseUrl }

/-- A database endpoint with its key. -/
def endpointOn (id providerType : String) (baseUrl : Option String) (key : String) :
    ModelEndpoint :=
  ⟨id, "m", providerType, baseUrl, some key, 1, true⟩

/-- The rebuild from these endpoints of one model. -/
def rebuildOn (endpoints : List ModelEndpoint) : DispatchOp :=
  .rebuild [⟨"m", "gpt", true⟩] endpoints .keepPrevious

/-- The runs in that environment. -/
def oneKeyRuns : TransitionSystem DispatchRun DispatchOp := runs (fun _ ↦ none) oneKeyEnv .auto

/-- The state after startup and this operation. -/
def after (op : DispatchOp) : DispatchRun :=
  (boot (fun _ ↦ none) oneKeyEnv .auto .default).step (fun _ ↦ none) op

theorem reachable_after (op : DispatchOp) : oneKeyRuns.Reachable (after op) :=
  .step (.init ⟨.default, rfl⟩) rfl

/-- Two endpoints that differ in the base URL and the key. -/
def twoUpstreams : DispatchOp :=
  rebuildOn [endpointOn "ep-1" "openai" (some "https://a.example/v1") "k-1",
    endpointOn "ep-2" "openai" (some "https://b.example/v1") "k-2"]

/-- Both are sent their own key, at their own host. -/
theorem two_upstreams_stay_home : oneKeyRuns.Reachable (after twoUpstreams) ∧
    (after twoUpstreams).gateway.targets.length = 2 ∧
      ∀ sent, (DispatchCall.route "gpt" (after twoUpstreams).gateway.targets).Sends
        (after twoUpstreams).gateway oneKeyEnv (fun _ ↦ true) sent →
          StaysHome .url oneKeyEnv .auto sent := by
  refine ⟨reachable_after _, rfl,
    (keys_stay_home_iff (reachable_after _) _).2 (covered_of_origins rfl ?_)⟩
  intro target hmem origin hget
  rw [after, twoUpstreams, rebuildOn, origins_of_rebuild rfl (by decide) hmem] at hget
  rw [Option.some.inj hget]

/-- An endpoint on Groq, at Groq's own base URL. -/
def groq : DispatchOp := rebuildOn [endpointOn "ep-1" "groq" none "gsk-1"]

/-- A configuration of two targets with base URLs of their own. -/
def twoConfigured : DispatchOp :=
  .reload { Config.default with
    targets := [openAiAt "https://a.example/v1", openAiAt "https://b.example/v1"] }

/-- **A Groq key goes to OpenAI through the proxy, and two configured targets with base URLs of
their own have their key sent to a third.** -/
theorem keys_leave_home :
    (oneKeyRuns.Reachable (after groq) ∧ ∃ sent,
      (DispatchCall.proxy "GET" "/v1/models").Sends (after groq).gateway oneKeyEnv (fun _ ↦ true)
          sent ∧
        sent.2.url = "https://api.openai.com/v1/v1/models" ∧ sent.2.key = "gsk-1" ∧
          ownBaseUrl oneKeyEnv .auto sent.1 = some "https://api.groq.com/openai/v1" ∧
            ¬ StaysHome .url oneKeyEnv .auto sent) ∧
      oneKeyRuns.Reachable (after twoConfigured) ∧
        ∀ target ∈ (after twoConfigured).gateway.targets, ∃ sent,
          (DispatchCall.route "gpt" (after twoConfigured).gateway.targets).Sends
              (after twoConfigured).gateway oneKeyEnv (fun _ ↦ true) sent ∧
            sent.1 = target ∧ sent.2.url = "https://api.openai.com/v1/chat/completions" ∧
              ¬ StaysHome .url oneKeyEnv .auto sent := by
  refine ⟨⟨reachable_after _, _, Gateway.proxy_eq_ok_iff.2 ⟨rfl,
    (⟨some "ep-1", "groq", 1, some ["gpt"], none, none⟩ : Target), rfl, .ofPreset "groq" .groq none,
      "gsk-1", ⟨by decide, by decide⟩, rfl⟩, by decide, rfl, by decide, fun hhome ↦ ?_⟩,
    reachable_after _, fun target hmem ↦ ?_⟩
  · have harrives := hhome (by decide) "https://api.openai.com/v1" (by decide)
    revert harrives
    decide
  · have hresolves :
        (after twoConfigured).gateway.Resolves oneKeyEnv target (envOpenAi oneKeyEnv) "sk-1" := by
      rcases List.mem_pair.1 hmem with rfl | rfl <;> exact ⟨rfl, rfl⟩
    refine ⟨_, Gateway.exists_mem_withFailover_iff.2 ⟨target, hmem, _, _, hresolves, rfl⟩,
      rfl, rfl, fun hhome ↦ ?_⟩
    have hlocated : EndpointReading.url.locate "https://api.openai.com/v1" =
        some "https://api.openai.com/v1" := by decide
    have harrives := hhome (show "sk-1" ≠ "" by decide) _ hlocated
    revert harrives
    rcases List.mem_pair.1 hmem with rfl | rfl <;> decide

end DispatchRun

end Himadri
