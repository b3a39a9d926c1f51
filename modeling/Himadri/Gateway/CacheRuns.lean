import Himadri.Core.ExpiringMap
import Himadri.Gateway.Route
import Himadri.Provider.Registry
import Himadri.Transition.System

/-!
# Runs of calls through one response cache

Calls of `route` one after another, by any principals and at non-decreasing times, with the response
cache on. Each call meets a gateway of its own, so that configuration, registrations and breakers
may change in between; what the calls share is the cache. Of `moka` only its time to live is
assumed: an entry may also be gone at any time (`CacheLabel.evict`).

Beside the cache, the state keeps where each response comes from: the provider that produced it,
when, and among which candidates.
-/

namespace Himadri

/-- Where a response comes from: the provider that produced it, the time, and the targets that were
selected to be tried for it. -/
structure Origin where
  provider : String
  obtainedAt : ℕ
  candidates : List Target

/-- An entry of the response cache. -/
structure Stored where
  response : ChatCompletionResponse
  origin : Origin

/-- A response given to a principal under the configuration of the moment. -/
structure Served where
  origin : Origin
  config : Config
  auth : Option AuthContext
  now : ℕ

/-- One call of `route`, with the gateway as the call finds it. -/
structure RouteCall where
  gateway : Gateway
  env : RequestEnv
  auditId : String
  trial : ℕ → Trial ChatCompletionResponse
  request : ChatCompletionRequest
  auth : Option AuthContext
  remoteIp : Option String
  now : ℕ

/-- The cache, the writes that keep its keys alive, and the responses served so far. -/
structure CacheRun where
  cache : ExpiringMap String Stored
  chains : KeyMap String WriteChain
  served : List Served
  now : ℕ

/-- What happens to the cache. -/
inductive CacheLabel
  | call (c : RouteCall)
  | evict (key : String)

section Steps

variable (ttl : ℕ) (digest : CacheDocument → String)

namespace RouteCall

variable (c : RouteCall) (cache : ExpiringMap String Stored)

/-- What the call meets. -/
def routeEnv : RouteEnv where
  toRequestEnv := c.env
  cache := some fun key ↦ (cache.get ttl c.now key).map (·.response)
  digest
  auditId := c.auditId
  trial := c.trial

/-- What the call does. -/
def run : RouteRun :=
  c.gateway.route (c.routeEnv ttl digest cache) c.request c.auth c.remoteIp

/-- The entry the call finds. -/
def hit : Option Stored := (c.run ttl digest cache).lookup.bind (cache.get ttl c.now ·)

/-- The request of record, where the call is not refused. -/
def recorded : Option ChatCompletionRequest :=
  (c.gateway.prepareRequest c.env c.request c.auth c.remoteIp).toOption.map (·.request)

/-- The targets selected for the request of record. -/
def candidates : List Target :=
  (c.recorded.bind fun request ↦
    (c.gateway.selectTargets c.env.selection request c.auth).toOption).getD []

/-- The answer of the providers to the request of record. -/
def fetched : Option Answer :=
  c.recorded.bind fun request ↦
    (c.gateway.fetch (c.routeEnv ttl digest cache) request c.auth).toOption

/-- Where the response of the call comes from. -/
def origin : Option Origin :=
  match c.hit ttl digest cache with
  | some stored => some stored.origin
  | none =>
    (c.fetched ttl digest cache).map fun answer ↦
      ⟨answer.target.provider, c.now, c.candidates⟩

end RouteCall

namespace CacheRun

/-- Before the first call. -/
def start : CacheRun := ⟨.empty, .empty, [], 0⟩

/-- After a call: what it wrote to the cache and what it returned. -/
def after (s : CacheRun) (c : RouteCall) : CacheRun :=
  match c.origin ttl digest s.cache with
  | none => { s with now := c.now }
  | some origin =>
    let run := c.run ttl digest s.cache
    let served :=
      if run.result.isOk then s.served ++ [⟨origin, c.gateway.config, c.auth, c.now⟩] else s.served
    match run.insert with
    | none => { s with served, now := c.now }
    | some (key, response) =>
      { cache := s.cache.insert key ⟨response, origin⟩ c.now
        chains := WriteChain.write s.chains ttl c.now key
        served
        now := c.now }

def step? (s : CacheRun) : CacheLabel → Option CacheRun
  | .call c => if s.now ≤ c.now then some (s.after ttl digest c) else none
  | .evict key => some { s with cache := s.cache.evict key }

end CacheRun

/-- The runs of calls over one response cache. -/
def cacheRuns : TransitionSystem CacheRun CacheLabel :=
  .ofPartial (· = .start) (CacheRun.step? ttl digest)

end Steps

/-! ### Where responses come from -/

namespace Gateway

variable {g : Gateway}

/-- The loop ends at one of the candidates. -/
theorem target_mem_of_failover {α β : Type*} {vars : String → Option String}
    {op : Target → ProviderClient → String → β} {ordered : List Target} {trial : ℕ → Trial α}
    {latencyMs : ℕ} {e : FailoverEnd α β}
    (h : g.failover vars op ordered trial latencyMs = some e) : e.target ∈ ordered := by
  induction ordered generalizing trial latencyMs e with
  | nil => cases h
  | cons t rest ih =>
    rw [failover] at h
    split at h
    · split at h
      · next later hlater =>
        have hmem := ih hlater
        obtain rfl := Option.some.inj h
        exact List.mem_cons_of_mem _ hmem
      · obtain rfl := Option.some.inj h
        exact List.mem_cons_self
    · obtain rfl := Option.some.inj h
      exact List.mem_cons_self

variable {env : RouteEnv} {request : ChatCompletionRequest} {auth : Option AuthContext}

/-- The answer comes from one of the selected targets. -/
theorem target_mem_of_fetch {answer : Answer} (h : g.fetch env request auth = .ok answer) :
    ∃ ordered, g.selectTargets env.selection request auth = .ok ordered ∧
      answer.target ∈ ordered := by
  obtain ⟨ordered, hordered, e, he, rfl⟩ := fetch_eq_ok.1 h
  exact ⟨ordered, hordered, target_mem_of_failover he⟩

/-- A call that returns a response or writes one has an answer. -/
theorem exists_answer_of_route {remoteIp : Option String}
    (h : (g.route env request auth remoteIp).result.isOk ∨
      (g.route env request auth remoteIp).insert.isSome) :
    ∃ ctx answer, g.prepareRequest env.toRequestEnv request auth remoteIp = .ok ctx ∧
      g.answer env ctx.request auth = .ok answer ∧
        g.route env request auth remoteIp = finish env ctx.request auth ctx answer := by
  unfold route at h ⊢
  cases hprepare : g.prepareRequest env.toRequestEnv request auth remoteIp with
  | error e =>
    rw [hprepare] at h
    rcases h with h | h <;> cases h
  | ok ctx =>
    rw [hprepare] at h
    dsimp only at h ⊢
    cases hanswer : g.answer env ctx.request auth with
    | error e =>
      rw [hanswer] at h
      rcases h with h | h <;> cases h
    | ok answer => exact ⟨ctx, answer, rfl, hanswer, rfl⟩

end Gateway

namespace RouteCall

variable {ttl : ℕ} {digest : CacheDocument → String} {c : RouteCall}
  {cache : ExpiringMap String Stored}

/-- The response looked up is that of the entry the call finds. -/
theorem cachedResponse_eq {ctx : PluginContext}
    (h : (c.run ttl digest cache).lookup = Gateway.routeKey (c.routeEnv ttl digest cache)
      ctx.request c.auth) :
    Gateway.cachedResponse (c.routeEnv ttl digest cache) ctx.request c.auth =
      (c.hit ttl digest cache).map (·.response) := by
  rw [hit, h, Gateway.cachedResponse]
  cases Gateway.routeKey (c.routeEnv ttl digest cache) ctx.request c.auth <;> rfl

/-- A call that returns a response or writes one knows where it comes from. -/
theorem exists_origin (h : (c.run ttl digest cache).result.isOk ∨
    (c.run ttl digest cache).insert.isSome) :
    ∃ origin, c.origin ttl digest cache = some origin := by
  obtain ⟨ctx, answer, hprepare, hanswer, hrun⟩ := Gateway.exists_answer_of_route h
  have hlookup : (c.run ttl digest cache).lookup =
      Gateway.routeKey (c.routeEnv ttl digest cache) ctx.request c.auth := by
    rw [run, hrun, Gateway.ends_finish.lookup]
  rw [origin]
  cases hhit : c.hit ttl digest cache with
  | some stored => exact ⟨stored.origin, rfl⟩
  | none =>
    rw [Gateway.answer, cachedResponse_eq hlookup, hhit] at hanswer
    have hrecorded : c.recorded = some ctx.request := by
      rw [recorded, show c.gateway.prepareRequest c.env c.request c.auth c.remoteIp = .ok ctx from
        hprepare]
      rfl
    have hfetched : c.fetched ttl digest cache = some answer := by
      rw [fetched, hrecorded]
      exact congrArg Except.toOption hanswer
    exact ⟨_, congrArg (Option.map _) hfetched⟩

private theorem toOption_eq_some {ε α : Type*} {x : Except ε α} {a : α} :
    x.toOption = some a ↔ x = .ok a := by
  cases x <;> simp [Except.toOption]

/-- The answer of the providers comes from a candidate. -/
theorem target_mem_candidates {answer : Answer} (h : c.fetched ttl digest cache = some answer) :
    answer.target ∈ c.candidates := by
  obtain ⟨request, hrecorded, hfetch⟩ := Option.bind_eq_some_iff.1 h
  obtain ⟨ordered, hordered, hmem⟩ := Gateway.target_mem_of_fetch (toOption_eq_some.1 hfetch)
  have hselected : (c.gateway.selectTargets c.env.selection request c.auth).toOption =
      some ordered := toOption_eq_some.2 hordered
  have hcandidates : c.candidates = ordered := by
    rw [candidates, hrecorded, Option.bind_some, hselected, Option.getD_some]
  rwa [hcandidates]

/-- The candidates are granted. -/
theorem grants_of_mem_candidates {t : Target} (h : t ∈ c.candidates) :
    grants c.gateway.config c.auth t.provider = true := by
  rw [candidates] at h
  cases hselect : c.recorded.bind fun request ↦
      (c.gateway.selectTargets c.env.selection request c.auth).toOption with
  | none =>
    rw [hselect] at h
    cases h
  | some ordered =>
    rw [hselect] at h
    obtain ⟨request, -, hordered⟩ := Option.bind_eq_some_iff.1 hselect
    exact (Gateway.mem_selectTargets (toOption_eq_some.1 hordered) h).1

/-- A response comes from an entry of the cache, or was just obtained from a candidate. -/
theorem origin_cases {o : Origin} (h : c.origin ttl digest cache = some o) :
    (∃ stored, c.hit ttl digest cache = some stored ∧ o = stored.origin) ∨
      (o.obtainedAt = c.now ∧ o.candidates = c.candidates ∧
        ∃ t ∈ o.candidates, t.provider = o.provider) := by
  rw [origin] at h
  cases hhit : c.hit ttl digest cache with
  | some stored =>
    rw [hhit] at h
    exact .inl ⟨stored, rfl, (Option.some.inj h).symm⟩
  | none =>
    rw [hhit] at h
    obtain ⟨answer, hfetched, rfl⟩ := Option.map_eq_some_iff.1 h
    exact .inr ⟨rfl, rfl, answer.target, target_mem_candidates hfetched, rfl⟩

/-- The entry is written under the key that was looked up. -/
theorem lookup_of_insert {entry : String × ChatCompletionResponse}
    (h : (c.run ttl digest cache).insert = some entry) :
    (c.run ttl digest cache).lookup = some entry.1 := by
  obtain ⟨ctx, answer, -, -, hrun⟩ := Gateway.exists_answer_of_route
    (.inr (Option.isSome_iff_exists.2 ⟨entry, h⟩))
  rw [run, hrun] at h ⊢
  rw [Gateway.ends_finish.lookup]
  exact Gateway.ends_finish.insert entry h

end RouteCall

namespace CacheRun

variable {ttl : ℕ} {digest : CacheDocument → String} {s : CacheRun} {c : RouteCall}

/-- What a call can do to the state: it serves nothing, or a response of known origin, which it may
also write to the cache. -/
theorem after_cases (P : CacheRun → Prop) (hnone : P { s with now := c.now })
    (hread : ∀ o, c.origin ttl digest s.cache = some o → ∀ served,
      (∀ e ∈ served, e ∈ s.served ∨ e = ⟨o, c.gateway.config, c.auth, c.now⟩) →
        P { s with served, now := c.now })
    (hwrite : ∀ o, c.origin ttl digest s.cache = some o → ∀ served,
      (∀ e ∈ served, e ∈ s.served ∨ e = ⟨o, c.gateway.config, c.auth, c.now⟩) →
        ∀ key response, (c.run ttl digest s.cache).lookup = some key →
          P ⟨s.cache.insert key ⟨response, o⟩ c.now,
            WriteChain.write s.chains ttl c.now key, served, c.now⟩) :
    P (s.after ttl digest c) := by
  unfold after
  split
  · exact hnone
  · next o ho =>
    dsimp only
    have hserved : ∀ e ∈ if (c.run ttl digest s.cache).result.isOk then
          s.served ++ [⟨o, c.gateway.config, c.auth, c.now⟩] else s.served,
        e ∈ s.served ∨ e = ⟨o, c.gateway.config, c.auth, c.now⟩ := by
      intro e he
      split at he
      · simpa using he
      · exact .inl he
    split
    · exact hread o ho _ hserved
    · next key response hinsert =>
      exact hwrite o ho _ hserved key response (RouteCall.lookup_of_insert hinsert)

theorem step?_call {s' : CacheRun} (h : s.step? ttl digest (.call c) = some s') :
    s.now ≤ c.now ∧ s' = s.after ttl digest c := by
  obtain ⟨hnow, hs'⟩ := Option.ite_none_right_eq_some.1 h
  exact ⟨hnow, (Option.some.inj hs').symm⟩

/-! ### Whom a response is given to -/

/-- Nobody was given a response of a provider their roles do not grant. -/
def Granted (s : CacheRun) : Prop :=
  ∀ e ∈ s.served, grants e.config e.auth e.origin.provider = true

instance : Decidable s.Granted := inferInstanceAs (Decidable (∀ e ∈ s.served, _))

/-- Whoever finds an entry is granted every candidate it was obtained among. -/
def HitsPermitted (ttl : ℕ) (digest : CacheDocument → String) (s : CacheRun) : CacheLabel → Prop
  | .call c => ∀ stored ∈ c.hit ttl digest s.cache, ∀ t ∈ stored.origin.candidates,
      grants c.gateway.config c.auth t.provider = true
  | .evict _ => True

instance : ∀ l, Decidable (HitsPermitted ttl digest s l)
  | .call c => inferInstanceAs (Decidable (∀ stored ∈ c.hit ttl digest s.cache,
      ∀ t ∈ stored.origin.candidates, grants c.gateway.config c.auth t.provider = true))
  | .evict _ => inferInstanceAs (Decidable True)

/-- What is in the cache was obtained from a candidate. -/
structure Sourced (s : CacheRun) : Prop where
  granted : s.Granted
  candidate : s.cache.All fun stored ↦
    ∃ t ∈ stored.origin.candidates, t.provider = stored.origin.provider

/-- Responses served later are granted, whatever else is kept. -/
theorem Granted.serve {served : List Served} {o : Origin} (h : s.Granted)
    (hserved : ∀ e ∈ served, e ∈ s.served ∨ e = ⟨o, c.gateway.config, c.auth, c.now⟩)
    (ho : grants c.gateway.config c.auth o.provider = true) :
    ∀ e ∈ served, grants e.config e.auth e.origin.provider = true := by
  intro e he
  rcases hserved e he with hold | rfl
  · exact h e hold
  · exact ho

/-- Where hits are permitted, a response is granted to whom it is served. -/
theorem Sourced.origin (h : s.Sourced) (hok : HitsPermitted ttl digest s (.call c)) {o : Origin}
    (ho : c.origin ttl digest s.cache = some o) :
    grants c.gateway.config c.auth o.provider = true ∧
      ∃ t ∈ o.candidates, t.provider = o.provider := by
  rcases RouteCall.origin_cases ho with ⟨stored, hhit, rfl⟩ | ⟨-, hcandidates, t, ht, hprovider⟩
  · obtain ⟨key, -, hget⟩ := Option.bind_eq_some_iff.1 hhit
    obtain ⟨t, ht, hprovider⟩ := h.candidate.get hget
    refine ⟨?_, t, ht, hprovider⟩
    rw [← hprovider]
    exact hok stored hhit t ht
  · refine ⟨?_, t, ht, hprovider⟩
    rw [← hprovider]
    exact RouteCall.grants_of_mem_candidates (hcandidates ▸ ht)

theorem sourced_step {l : CacheLabel} {s' : CacheRun} (h : s.Sourced)
    (hstep : s.step? ttl digest l = some s') (hok : HitsPermitted ttl digest s l) :
    s'.Sourced := by
  cases l with
  | call c =>
    obtain ⟨-, rfl⟩ := step?_call hstep
    apply after_cases Sourced
    · exact ⟨h.granted, h.candidate⟩
    · intro o ho served hserved
      exact ⟨h.granted.serve hserved (h.origin hok ho).1, h.candidate⟩
    · intro o ho served hserved key response _
      obtain ⟨hgrants, hcandidate⟩ := h.origin hok ho
      exact ⟨h.granted.serve hserved hgrants, h.candidate.insert hcandidate⟩
  | evict key =>
    obtain rfl := Option.some.inj hstep
    exact ⟨h.granted, h.candidate.evict⟩

/-- **In every run in which entries are found only by those who are granted each candidate the entry
was obtained among, nobody is given a response of a provider their roles do not grant.** -/
theorem granted_of_reachable
    (h : ((cacheRuns ttl digest).guard (HitsPermitted ttl digest)).Reachable s) : s.Granted := by
  have hsourced : ((cacheRuns ttl digest).guard (HitsPermitted ttl digest)).Invariant Sourced := by
    constructor
    · rintro s rfl
      exact ⟨fun e he ↦ (by cases he), fun k v t hentry ↦ (by cases hentry)⟩
    · intro s l s' hs hstep
      exact sourced_step hs hstep.1 hstep.2
  exact (hsourced.of_reachable h).granted

/-! ### How old a response is -/

/-- No response was older than the time to live when it was given. -/
def Fresh (ttl : ℕ) (s : CacheRun) : Prop :=
  ∀ e ∈ s.served, e.now ≤ e.origin.obtainedAt + ttl

instance : Decidable (s.Fresh ttl) := inferInstanceAs (Decidable (∀ e ∈ s.served, _))

/-- A call does not find its key kept alive by writes for longer than the time to live. -/
def ChainsWithin (ttl : ℕ) (digest : CacheDocument → String) (s : CacheRun) : CacheLabel → Prop
  | .call c => ∀ key ∈ (c.run ttl digest s.cache).lookup,
      ∀ first ∈ WriteChain.going s.chains ttl c.now key, c.now ≤ first + ttl
  | .evict _ => True

instance : ∀ l, Decidable (ChainsWithin ttl digest s l)
  | .call c => inferInstanceAs (Decidable (∀ key ∈ (c.run ttl digest s.cache).lookup,
      ∀ first ∈ WriteChain.going s.chains ttl c.now key, c.now ≤ first + ttl))
  | .evict _ => inferInstanceAs (Decidable True)

/-- The chains of writes know how old the entries are. -/
structure Ages (ttl : ℕ) (s : CacheRun) : Prop where
  fresh : s.Fresh ttl
  past : WriteChain.Past s.now s.chains
  tracks : s.cache.Tracks (fun stored ↦ stored.origin.obtainedAt) s.chains

/-- Responses served later are fresh, whatever else is kept. -/
theorem Fresh.serve {served : List Served} {o : Origin} (h : s.Fresh ttl)
    (hserved : ∀ e ∈ served, e ∈ s.served ∨ e = ⟨o, c.gateway.config, c.auth, c.now⟩)
    (ho : c.now ≤ o.obtainedAt + ttl) : ∀ e ∈ served, e.now ≤ e.origin.obtainedAt + ttl := by
  intro e he
  rcases hserved e he with hold | rfl
  · exact h e hold
  · exact ho

/-- Within its chain of writes, a response is no older than the time to live, and dates from within
the chain. -/
theorem Ages.origin (h : s.Ages ttl) (hok : ChainsWithin ttl digest s (.call c))
    (hnow : s.now ≤ c.now) {o : Origin} (ho : c.origin ttl digest s.cache = some o) :
    c.now ≤ o.obtainedAt + ttl ∧ ∀ key, (c.run ttl digest s.cache).lookup = some key →
      (WriteChain.going s.chains ttl c.now key).getD c.now ≤ o.obtainedAt := by
  -- a hit is as old as its chain at most, and a fetch is new
  rcases RouteCall.origin_cases ho with ⟨stored, hhit, rfl⟩ | ⟨hobtained, -, -⟩
  · obtain ⟨key, hkey, hget⟩ := Option.bind_eq_some_iff.1 hhit
    obtain ⟨first, hgoing, hfirst⟩ := h.tracks.get hget
    refine ⟨(hok key hkey first hgoing).trans (Nat.add_le_add_right hfirst ttl),
      fun key' hkey' ↦ ?_⟩
    obtain rfl : key = key' := Option.some.inj (hkey.symm.trans hkey')
    rwa [hgoing]
  · rw [hobtained]
    exact ⟨Nat.le_add_right _ _, fun key _ ↦ (h.past.mono hnow).going_getD_le⟩

theorem ages_step {l : CacheLabel} {s' : CacheRun} (h : s.Ages ttl)
    (hstep : s.step? ttl digest l = some s') (hok : ChainsWithin ttl digest s l) :
    s'.Ages ttl := by
  cases l with
  | call c =>
    obtain ⟨hnow, rfl⟩ := step?_call hstep
    apply after_cases (Ages ttl)
    · exact ⟨h.fresh, h.past.mono hnow, h.tracks⟩
    · intro o ho served hserved
      exact ⟨h.fresh.serve hserved (h.origin hok hnow ho).1, h.past.mono hnow, h.tracks⟩
    · intro o ho served hserved key response hkey
      obtain ⟨hfresh, hfirst⟩ := h.origin hok hnow ho
      exact ⟨h.fresh.serve hserved hfresh, (h.past.mono hnow).write,
        h.tracks.insert (hfirst key hkey)⟩
  | evict key =>
    obtain rfl := Option.some.inj hstep
    exact ⟨h.fresh, h.past, h.tracks.evict⟩

/-- **In every run in which no key is asked for after having been kept alive by writes for longer
than the time to live, every response served was obtained at most that long ago.** -/
theorem fresh_of_reachable
    (h : ((cacheRuns ttl digest).guard (ChainsWithin ttl digest)).Reachable s) : s.Fresh ttl := by
  have hages : ((cacheRuns ttl digest).guard (ChainsWithin ttl digest)).Invariant (Ages ttl) := by
    constructor
    · rintro s rfl
      exact ⟨fun e he ↦ (by cases he), fun k c hc ↦ (by cases hc), fun k e he ↦ (by cases he)⟩
    · intro s l s' hs hstep
      exact ages_step hs hstep.1 hstep.2
  exact (hages.of_reachable h).fresh

/-! ### Two principals and a hot key -/

/-- A gateway with one provider and two roles, of which one is granted it. -/
def twoRoles : Gateway :=
  (Gateway.new (fun _ ↦ none)
    { Config.default with
      rbac :=
        { enabled := true
          roles := (KeyMap.empty.insert "analyst" ⟨none, some ["openai"]⟩).insert "intern"
            ⟨none, some ["anthropic"]⟩
          defaultRole := none } }).registerProvider (.compatible .openai)

/-- The same question, asked in a role at a time. -/
def askedBy (role : String) (now : ℕ) : CacheLabel :=
  .call
    { gateway := twoRoles
      env := { RequestEnv.plain with vars := fun _ ↦ some "sk-openai" }
      auditId := "audit"
      trial := fun _ ↦ ⟨true, .ok (.ofText "response" "gpt-4o" "hello"), 1⟩
      request := .ofMessages "gpt-4o" [.user "hello"]
      auth := some { AuthContext.default with scope := .apiKey, roles := [role] }
      remoteIp := none
      now }

/-- An analyst asks twice and is answered from the cache the second time. -/
theorem granted_to_analyst : ∃ s,
    ((cacheRuns 10 (·.model)).guard (HitsPermitted 10 (·.model))).Reachable s ∧
      s.served.length = 2 ∧ s.Granted := by
  obtain ⟨s, hs, htwice⟩ : ∃ s,
      ((cacheRuns 10 (·.model)).guard (HitsPermitted 10 (·.model))).Reachable s ∧
        s.served.length = 2 :=
    ⟨_, TransitionSystem.reachable_guard_of_foldlM rfl
      [askedBy "analyst" 0, askedBy "analyst" 1] rfl, rfl⟩
  exact ⟨s, hs, htwice, granted_of_reachable hs⟩

/-- An intern is given what an analyst was answered. -/
theorem intern_given_openai : ∃ s, (cacheRuns 10 (·.model)).Reachable s ∧ ¬ s.Granted :=
  ⟨_, TransitionSystem.reachable_of_foldlM rfl [askedBy "analyst" 0, askedBy "intern" 1] rfl,
    by decide⟩

/-- A key asked for twice within the time to live. -/
theorem fresh_within_ttl : ∃ s,
    ((cacheRuns 10 (·.model)).guard (ChainsWithin 10 (·.model))).Reachable s ∧
      s.served.length = 2 ∧ s.Fresh 10 := by
  obtain ⟨s, hs, htwice⟩ : ∃ s,
      ((cacheRuns 10 (·.model)).guard (ChainsWithin 10 (·.model))).Reachable s ∧
        s.served.length = 2 :=
    ⟨_, TransitionSystem.reachable_guard_of_foldlM rfl
      [askedBy "analyst" 0, askedBy "analyst" 6] rfl, rfl⟩
  exact ⟨s, hs, htwice, fresh_of_reachable hs⟩

/-- A key asked for again and again outlives its time to live. -/
theorem hot_key_stale : ∃ s, (cacheRuns 10 (·.model)).Reachable s ∧ ¬ s.Fresh 10 :=
  ⟨_, TransitionSystem.reachable_of_foldlM rfl
    [askedBy "analyst" 0, askedBy "analyst" 6, askedBy "analyst" 12] rfl, by decide⟩

end CacheRun

end Himadri
