import Himadri.Plugins.Budget
import Himadri.Transition.System

/-!
# Budgets over whole runs

The requests of any number of principals against one spend store. A request is checked before the
provider is called, and its cost is added after the response: in between it is in flight, and any
other requests may be checked and recorded (`BudgetRun`). Plugins that share the store may differ in
their prices and limits.

For one key `step_cases` says what a step can do: nothing, admit a request, or record a cost. A key
whose spend has reached a limit is refused until its entry is evicted (`exhausted_until_evicted`).
-/

namespace Himadri

/-- The store and the requests in flight. -/
structure BudgetRun where
  store : SpendStore
  clock : ℕ
  /-- The requests that were admitted and have neither been recorded nor given up. -/
  inFlight : List (BudgetPlugin × PluginContext)
  /-- What the responses cost, with the key of the principal; the last first. -/
  costs : List (String × ℚ)

/-- One step. -/
inductive BudgetOp
  /-- The plugin meets a request before the provider is called. -/
  | before (plugin : BudgetPlugin) (ctx : PluginContext) (env : SpendEnv)
  /-- The plugin meets the `j`-th request in flight again, after its response. -/
  | after (j : ℕ) (response : ChatCompletionResponse) (env : SpendEnv)
  /-- The `j`-th request in flight ends without a response. -/
  | abandon (j : ℕ)
  /-- `reset_store_key`. -/
  | resetKey (key : String)
  /-- `reset_store`. -/
  | resetAll

namespace BudgetRun

open BudgetPlugin

/-- A store without entries. -/
def new (maxKeys : ℕ) : BudgetRun := ⟨.new maxKeys, 0, [], []⟩

variable (s : BudgetRun)

/-- What a response to the `j`-th request in flight costs. -/
def chargeOf (j : ℕ) (response : ChatCompletionResponse) : Option (String × ℚ) :=
  s.inFlight[j]?.bind fun p ↦ p.1.charge p.2 response

/-- One step; time does not go back, and an entry that is evicted is one that is least recent. -/
def step? : BudgetOp → Option BudgetRun
  | .before plugin ctx env =>
    if ctx.response.isSome then none
    else
      match plugin.execute s.store env ctx with
      | (store, .ok ()) => some { s with store, inFlight := s.inFlight ++ [(plugin, ctx)] }
      | (store, .error _) => some { s with store }
  | .after j response env =>
    match s.inFlight[j]? with
    | none => none
    | some (plugin, ctx) =>
      if s.clock ≤ env.now ∧ (s.store.atCapacity = true → s.store.IsLru env.lru) then
        some
          { store := (plugin.execute s.store env { ctx with response := some response }).1
            clock := env.now
            inFlight := s.inFlight.eraseIdx j
            costs := (s.chargeOf j response).toList ++ s.costs }
      else none
  | .abandon j =>
    if j < s.inFlight.length then some { s with inFlight := s.inFlight.eraseIdx j } else none
  | .resetKey key => some { s with store := s.store.reset key }
  | .resetAll => some { s with store := s.store.resetAll }

/-- The runs of a store, whatever its cap. -/
def runs : TransitionSystem BudgetRun BudgetOp := .ofPartial (fun s ↦ ∃ n, s = new n) step?

/-- The step resets the key. -/
def resets (key : String) : BudgetOp → Bool
  | .resetKey key' => key' = key
  | .resetAll => true
  | _ => false

/-- The step evicts the key. -/
def evicts (key : String) : BudgetOp → Bool
  | .after j response env =>
    match s.chargeOf j response with
    | none => false
    | some (other, cost) => 0 < cost && s.store.evictsFor other && env.lru = key
  | _ => false

/-- How many requests of the principal are in flight. -/
def pending (key : String) : ℕ := s.inFlight.countP fun p ↦ spendKey p.2 = some key

/-- What the responses to the principal cost. -/
def costsOf (key : String) : List ℚ := (s.costs.filter (·.1 = key)).map Prod.snd

variable {s} {s' : BudgetRun} {op : BudgetOp} {key : String}

/-! ### One step -/

variable (key) in
theorem pending_eraseIdx {j : ℕ} {p : BudgetPlugin × PluginContext}
    (hj : s.inFlight[j]? = some p) :
    (s.inFlight.eraseIdx j).countP (fun p ↦ spendKey p.2 = some key) +
      (if spendKey p.2 = some key then 1 else 0) = s.pending key := by
  obtain ⟨hlt, rfl⟩ := List.getElem?_eq_some_iff.1 hj
  have hperm := List.getElem_cons_eraseIdx_perm hlt
  rw [pending, ← hperm.countP_eq, List.countP_cons]
  simp

theorem step?_before {plugin : BudgetPlugin} {ctx : PluginContext} {env : SpendEnv}
    (hstep : s.step? (.before plugin ctx env) = some s') :
    s' = s ∨ (∀ key ∈ spendKey ctx,
      plugin.limitFor ctx ≤ 0 ∨ s.store.get key < plugin.limitFor ctx) ∧
        s' = { s with inFlight := s.inFlight ++ [(plugin, ctx)] } := by
  simp only [step?] at hstep
  rcases hresponse : ctx.response with - | response
  · obtain ⟨hstore, hok⟩ := execute_before plugin s.store env hresponse
    rw [← hok]
    rcases hexecute : plugin.execute s.store env ctx with ⟨store, e | u⟩
    · simp only [hresponse, hexecute] at hstep hstore
      rw [hstore] at hstep
      exact .inl (Option.some.inj hstep).symm
    · simp only [hresponse, hexecute] at hstep hstore
      rw [hstore] at hstep
      exact .inr ⟨rfl, (Option.some.inj hstep).symm⟩
  · simp [hresponse] at hstep

theorem step?_after {j : ℕ} {response : ChatCompletionResponse} {env : SpendEnv}
    (hstep : s.step? (.after j response env) = some s') :
    ∃ p, s.inFlight[j]? = some p ∧ s' =
      { store :=
          match s.chargeOf j response with
          | none => s.store
          | some (key, cost) => if 0 < cost then s.store.add env key cost else s.store
        clock := env.now
        inFlight := s.inFlight.eraseIdx j
        costs := (s.chargeOf j response).toList ++ s.costs } := by
  simp only [step?] at hstep
  rcases hj : s.inFlight[j]? with - | ⟨plugin, ctx⟩
  · simp [hj] at hstep
  · simp only [hj] at hstep
    obtain ⟨-, hs'⟩ := Option.ite_none_right_eq_some.1 hstep
    refine ⟨_, rfl, ?_⟩
    have hcharge : s.chargeOf j response = plugin.charge ctx response := by rw [chargeOf, hj]; rfl
    rw [execute_after, ← hcharge] at hs'
    exact (Option.some.inj hs').symm

theorem chargeOf_eq_some {j : ℕ} {response : ChatCompletionResponse} {cost : ℚ}
    {p : BudgetPlugin × PluginContext} (hj : s.inFlight[j]? = some p)
    (h : s.chargeOf j response = some (key, cost)) : spendKey p.2 = some key := by
  rw [chargeOf, hj, Option.bind_some, charge, Option.bind_eq_some_iff] at h
  obtain ⟨key', hkey, husage⟩ := h
  obtain ⟨usage, -, heq⟩ := Option.map_eq_some_iff.1 husage
  rw [hkey, (Prod.mk.inj heq).1]

/-- What a step does to the account of one principal, unless it resets or evicts it. -/
theorem step_cases (hstep : s.step? op = some s') (hevicts : s.evicts key op = false)
    (hresets : resets key op = false) :
    (s'.store.micro key = s.store.micro key ∧ s'.costsOf key = s.costsOf key ∧
      s'.pending key ≤ s.pending key) ∨
    (∃ plugin ctx env, op = .before plugin ctx env ∧ spendKey ctx = some key ∧
      (plugin.limitFor ctx ≤ 0 ∨ s.store.get key < plugin.limitFor ctx) ∧
      s'.store.micro key = s.store.micro key ∧ s'.costsOf key = s.costsOf key ∧
      s'.pending key = s.pending key + 1) ∨
    ∃ j response env cost, op = .after j response env ∧
      s.chargeOf j response = some (key, cost) ∧
      s'.store.micro key =
        (if 0 < cost then min (s.store.micro key + usdToMicro cost) (UInt64.size - 1)
          else s.store.micro key) ∧
      s'.costsOf key = cost :: s.costsOf key ∧ s'.pending key + 1 = s.pending key := by
  cases op with
  | before plugin ctx env =>
    rcases step?_before hstep with rfl | ⟨hroom, rfl⟩
    · exact .inl ⟨rfl, rfl, le_rfl⟩
    · by_cases hkey : spendKey ctx = some key
      · refine .inr (.inl ⟨plugin, ctx, env, rfl, hkey, hroom key hkey, rfl, rfl, ?_⟩)
        simp [pending, List.countP_append, hkey]
      · refine .inl ⟨rfl, rfl, ?_⟩
        simp [pending, List.countP_append, hkey]
  | after j response env =>
    obtain ⟨p, hj, rfl⟩ := step?_after hstep
    have hpending := pending_eraseIdx key hj
    rcases hcharge : s.chargeOf j response with - | ⟨other, cost⟩
    · exact .inl ⟨rfl, rfl, Nat.le.intro hpending⟩
    · have hother := chargeOf_eq_some hj hcharge
      rcases eq_or_ne other key with rfl | hne
      · rw [if_pos hother] at hpending
        refine .inr (.inr ⟨j, response, env, cost, rfl, hcharge, ?_, ?_, hpending⟩)
        · simp only
          split
          · exact s.store.micro_add_self ..
          · rfl
        · simp [costsOf]
      · refine .inl ⟨?_, ?_, Nat.le.intro hpending⟩
        · simp only
          split
          · next hpos =>
            rw [s.store.micro_add_of_ne env cost hne.symm, if_neg]
            rintro ⟨hfull, hlru⟩
            simp [evicts, hcharge, hpos, hfull, hlru] at hevicts
          · rfl
        · simp [costsOf, hne]
  | abandon j =>
    obtain ⟨hj, hs'⟩ := Option.ite_none_right_eq_some.1 hstep
    obtain rfl := Option.some.inj hs'
    have hpending := pending_eraseIdx key (List.getElem?_eq_getElem hj)
    exact .inl ⟨rfl, rfl, Nat.le.intro hpending⟩
  | resetKey key' =>
    obtain rfl := Option.some.inj hstep
    have hne : key ≠ key' := by
      rintro rfl
      simp [resets] at hresets
    exact .inl ⟨(s.store.micro_reset key' key).trans (if_neg hne), rfl, le_rfl⟩
  | resetAll => cases hresets

/-! ### An exhausted budget -/

/-- Every request of the principal that has this limit is refused. -/
def Refuses (store : SpendStore) (key : String) (limit : ℚ) : Prop :=
  ∀ (plugin : BudgetPlugin) (ctx : PluginContext) (env : SpendEnv), spendKey ctx = some key →
    ctx.response = none → plugin.limitFor ctx = limit →
    ∃ reason, (plugin.execute store env ctx).2 =
      .error (.rejected "budget" reason .budgetExceeded)

theorem refuses_iff {store : SpendStore} {limit : ℚ} (hlimit : 0 < limit) :
    Refuses store key limit ↔ limit ≤ store.get key := by
  constructor
  · intro h
    let plugin : BudgetPlugin := ⟨limit, 1, 0, hlimit.le, fun _ hzero ↦ absurd hzero one_ne_zero⟩
    let auth : AuthContext := { AuthContext.default with keyId := some key }
    obtain ⟨reason, hreason⟩ :=
      h plugin (.fromRequest "" (.ofMessages "" []) (some auth)) ⟨0, ""⟩ rfl rfl rfl
    by_contra hroom
    have hok : plugin.checkBudget store key none = .ok () :=
      checkBudget_eq_ok_iff.2 (.inr (not_le.1 hroom))
    cases hok.symm.trans hreason
  · intro hspent plugin ctx env hkey hresponse rfl
    have hpos : ¬plugin.effectiveLimit (ctx.auth.bind (·.budgetLimitUsd)) ≤ 0 := not_le.2 hlimit
    rw [execute, hkey, hresponse]
    simp only [checkBudget, if_neg hpos]
    exact ⟨_, if_pos hspent⟩

variable (s key) in
/-- The step neither evicts nor resets the key. -/
def Kept (op : BudgetOp) : Prop := s.evicts key op = false ∧ resets key op = false

instance : DecidablePred (s.Kept key) := fun _ ↦ inferInstanceAs (Decidable (_ ∧ _))

theorem micro_le_of_step (hstep : s.step? op = some s') (hkept : s.Kept key op) :
    s.store.micro key ≤ s'.store.micro key := by
  have hmax := s.store.micro_lt key
  rcases step_cases hstep hkept.1 hkept.2 with ⟨h, -⟩ | ⟨-, -, -, -, -, -, h, -⟩ |
    ⟨-, -, -, cost, -, -, h, -⟩
  · exact h.ge
  · exact h.ge
  · rw [h]
    split
    · exact le_min (Nat.le_add_right ..) (Nat.le_sub_one_of_lt hmax)
    · exact le_rfl

theorem micro_le_of_leads (h : (runs.guard fun s ↦ s.Kept key).Leads s s') :
    s.store.micro key ≤ s'.store.micro key := by
  induction h with
  | refl => exact le_rfl
  | tail _ hstep ih =>
    obtain ⟨op, hstep, hkept⟩ := hstep
    exact ih.trans (micro_le_of_step hstep hkept)

/-- An entry that is evicted is forgotten. -/
theorem micro_of_evicts (hstep : s.step? op = some s') (hevicts : s.evicts key op = true)
    (hspent : 0 < s.store.micro key) : s'.store.micro key = 0 := by
  cases op with
  | after j response env =>
    obtain ⟨p, -, rfl⟩ := step?_after hstep
    rcases hcharge : s.chargeOf j response with - | ⟨other, cost⟩
    · simp [evicts, hcharge] at hevicts
    · simp only [evicts, hcharge, Bool.and_eq_true, decide_eq_true_eq] at hevicts
      obtain ⟨⟨hpos, hfull⟩, hlru⟩ := hevicts
      have hne : key ≠ other := by
        rintro rfl
        have hnew : key ∉ s.store.spend := SpendStore.notMem_of_evictsFor hfull
        rw [SpendStore.micro, Finmap.lookup_eq_none.2 hnew] at hspent
        exact lt_irrefl 0 hspent
      simp only [if_pos hpos]
      rw [s.store.micro_add_of_ne env cost hne, if_pos ⟨hfull, hlru.symm⟩]
  | before | abandon | resetKey | resetAll => cases hevicts

/-- **An exhausted budget stays exhausted exactly until its entry is evicted**, whatever other
principals do and with any cap, unless it is reset. -/
theorem exhausted_until_evicted {limit : ℚ} (hlimit : 0 < limit) (hspent : limit ≤ s.store.get key)
    (hs' : (runs.guard fun s ↦ s.Kept key).Leads s s') :
    Refuses s'.store key limit ∧ ∀ op s'', s'.step? op = some s'' → resets key op = false →
      (Refuses s''.store key limit ↔ s'.evicts key op = false) := by
  have hspent' : limit ≤ s'.store.get key := by
    rw [SpendStore.get_eq, le_microToUsd_iff] at hspent ⊢
    exact hspent.trans (by exact_mod_cast micro_le_of_leads hs')
  refine ⟨(refuses_iff hlimit).2 hspent', fun op s'' hstep hresets ↦ ?_⟩
  rw [SpendStore.get_eq, le_microToUsd_iff] at hspent'
  rw [refuses_iff hlimit, SpendStore.get_eq, le_microToUsd_iff]
  rcases hevicts : s'.evicts key op with - | -
  · refine iff_of_true (hspent'.trans ?_) rfl
    exact_mod_cast micro_le_of_step hstep ⟨hevicts, hresets⟩
  · have hpos : 0 < s'.store.micro key := by
      have hpos' : (0 : ℚ) < s'.store.micro key := lt_of_lt_of_le (by linarith) hspent'
      exact_mod_cast hpos'
    rw [micro_of_evicts hstep hevicts hpos]
    refine iff_of_false ?_ Bool.noConfusion
    rw [Nat.cast_zero, not_le]
    linarith

/-! ### Two principals -/

/-- A limit of one dollar, and a dollar for a million tokens of a prompt. -/
def oneDollar : BudgetPlugin := ⟨1, 1, 0, zero_le_one, fun _ hzero ↦ absurd hzero one_ne_zero⟩

/-- Forty cents for a million tokens of a prompt, and a dollar for as many of a completion. -/
def fortyCents : BudgetPlugin := ⟨1, 2 / 5, 1, zero_le_one, fun _ _ ↦ one_ne_zero⟩

/-- A request of a key. -/
def requestOf (id : String) : PluginContext :=
  .fromRequest "" (.ofMessages "gpt-4o" []) (some { AuthContext.default with keyId := some id })

/-- A response to a prompt of so many tokens. -/
def responseTo (promptTokens : ℕ) : ChatCompletionResponse :=
  { ChatCompletionResponse.ofText "" "gpt-4o" "" with
    usage := some ⟨promptTokens, 0, promptTokens⟩ }

/-- A key spends a dollar; `oldest` is least recent at that time. -/
def spendsDollar (id oldest : String) (now : ℕ) : List BudgetOp :=
  [.before oneDollar (requestOf id) ⟨now, oldest⟩, .after 0 (responseTo 1000000) ⟨now, oldest⟩]

/-- With room for two keys, one that has spent its dollar is refused also after another has. -/
theorem exhausted_beside_another : ∃ s s', runs.Reachable s ∧
    (runs.guard fun s ↦ s.Kept "key-1").Leads s s' ∧ Refuses s'.store "key-1" 1 ∧
      ∀ op s'', s'.step? op = some s'' → resets "key-1" op = false →
        (Refuses s''.store "key-1" 1 ↔ s'.evicts "key-1" op = false) := by
  have hrun : (((spendsDollar "key-1" "" 0).foldlM step? (new 2)).any fun s ↦
      1 ≤ s.store.get "key-1" && ((spendsDollar "key-2" "key-1" 1).foldlM
        (fun (s : BudgetRun) op ↦ if s.Kept "key-1" op then step? s op else none) s).isSome) =
      true := by
    decide +kernel
  obtain ⟨s, hs, hrest⟩ := (Option.any_eq_true ..).1 hrun
  rw [Bool.and_eq_true, decide_eq_true_eq, Option.isSome_iff_exists] at hrest
  obtain ⟨hspent, s', hs'⟩ := hrest
  have hleads : (runs.guard fun s ↦ s.Kept "key-1").Leads s s' :=
    TransitionSystem.leads_guard_of_foldlM _ hs'
  exact ⟨s, s', TransitionSystem.reachable_of_foldlM ⟨2, rfl⟩ _ hs, hleads,
    exhausted_until_evicted one_pos hspent hleads⟩

/-- With room for one key, another principal makes the store forget it. -/
theorem exhausted_forgotten : ¬∀ key limit s s', 0 < limit → runs.Reachable s →
    limit ≤ s.store.get key → (runs.guard fun _ op ↦ resets key op = false).Leads s s' →
    Refuses s'.store key limit := by
  intro h
  have hrun : (((spendsDollar "key-1" "" 0).foldlM step? (new 1)).any fun s ↦
      1 ≤ s.store.get "key-1" && ((spendsDollar "key-2" "key-1" 1).foldlM
        (fun (s : BudgetRun) op ↦ if resets "key-1" op = false then step? s op else none) s).any
          fun s' ↦ s'.store.get "key-1" < 1) = true := by
    decide +kernel
  obtain ⟨s, hs, hrest⟩ := (Option.any_eq_true ..).1 hrun
  rw [Bool.and_eq_true, decide_eq_true_eq, Option.any_eq_true] at hrest
  obtain ⟨hspent, s', hs', hroom⟩ := hrest
  have hrefuses := h "key-1" 1 s s' one_pos (TransitionSystem.reachable_of_foldlM ⟨1, rfl⟩ _ hs)
    hspent (TransitionSystem.leads_guard_of_foldlM _ hs')
  exact absurd ((refuses_iff one_pos).1 hrefuses) (not_le.2 (of_decide_eq_true hroom))

end BudgetRun

end Himadri
