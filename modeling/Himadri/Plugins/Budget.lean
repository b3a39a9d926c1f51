import Himadri.Plugins.Pipeline
import Mathlib.Algebra.Order.Ring.Rat
import Mathlib.Algebra.Order.Round
import Mathlib.Data.Finmap
import Mathlib.Data.Rat.Floor

/-!
# The budget plugin

`SpendStore`, the spend of each principal in whole micro-dollars, and `BudgetPlugin`, which refuses
a request when the spend of its principal has reached the limit and adds the cost of its response
afterwards. An `f64` is an exact rational. What a store answers is determined by `micro`, the
amount under a key, and `micro_add` says what an addition does to it: the only key to lose its
amount is the one that is evicted.
-/

namespace Himadri

/-! ### Money -/

/-- The nearest number of micro-dollars, and none below zero. -/
def nearestMicro (usd : ℚ) : ℕ := (round (usd * 1000000)).toNat

/-- `usd_to_micro`. -/
def usdToMicro (usd : ℚ) : ℕ := min (nearestMicro usd) (UInt64.size - 1)

/-- `micro_to_usd`. -/
def microToUsd (micro : ℕ) : ℚ := micro / 1000000

theorem microToUsd_lt_iff {micro : ℕ} {usd : ℚ} : microToUsd micro < usd ↔ micro < usd * 1000000 :=
  div_lt_iff₀ (by norm_num)

theorem le_microToUsd_iff {micro : ℕ} {usd : ℚ} : usd ≤ microToUsd micro ↔ usd * 1000000 ≤ micro :=
  le_div_iff₀ (by norm_num)

theorem round_nonpos {x : ℚ} (hx : x ≤ 0) : round x ≤ 0 := by
  have hlt : x + 1 / 2 < ((1 : ℤ) : ℚ) := by norm_num; linarith
  rw [round_eq]
  exact Int.lt_add_one_iff.1 (Int.floor_lt.2 hlt)

theorem round_nonneg {x : ℚ} (hx : 0 ≤ x) : 0 ≤ round x := by
  rw [round_eq]
  exact Int.floor_nonneg.2 (by linarith)

theorem nearestMicro_eq_zero {usd : ℚ} (h : usd ≤ 0) : nearestMicro usd = 0 :=
  Int.toNat_of_nonpos (round_nonpos (by linarith))

theorem coe_nearestMicro {usd : ℚ} (h : 0 ≤ usd) :
    (nearestMicro usd : ℚ) = round (usd * 1000000) := by
  have hround : 0 ≤ round (usd * 1000000) := round_nonneg (by linarith)
  rw [nearestMicro, ← Int.cast_natCast, Int.toNat_of_nonneg hround]

/-- What is charged exceeds a cost by at most half a micro-dollar. -/
theorem usdToMicro_le {usd : ℚ} (h : 0 ≤ usd) : (usdToMicro usd : ℚ) ≤ usd * 1000000 + 1 / 2 := by
  have hle : (usdToMicro usd : ℚ) ≤ nearestMicro usd := by
    exact_mod_cast Nat.min_le_left ..
  have hround := abs_le.1 (abs_sub_round (usd * 1000000))
  rw [coe_nearestMicro h] at hle
  linarith

/-- What is charged falls short of a cost by at most half a micro-dollar, unless it is all that an
entry can hold. -/
theorem le_usdToMicro {usd : ℚ} (h : 0 ≤ usd) (hmax : usdToMicro usd < UInt64.size - 1) :
    usd * 1000000 ≤ usdToMicro usd + 1 / 2 := by
  have heq : usdToMicro usd = nearestMicro usd := by
    rw [usdToMicro] at hmax ⊢
    exact min_eq_left (le_of_lt ((min_lt_iff.1 hmax).resolve_right (lt_irrefl _)))
  have hround := abs_le.1 (abs_sub_round (usd * 1000000))
  rw [heq, coe_nearestMicro h]
  linarith

/-- An amount in dollars with that many decimals, as `format!` prints it: of two nearest decimals
the even one. -/
def formatFixed (digits : ℕ) (usd : ℚ) : String :=
  let scaled := usd * 10 ^ digits
  let below := ⌊scaled⌋
  let nearest :=
    if 2 * Int.fract scaled < 1 ∨ (2 * Int.fract scaled = 1 ∧ below % 2 = 0) then below
    else below + 1
  let whole := toString (nearest.toNat / 10 ^ digits)
  let decimals := toString (nearest.toNat % 10 ^ digits)
  whole ++ "." ++ "".pushn '0' (digits - decimals.length) ++ decimals

/-! ### The store -/

/-- `SpendEntry`. -/
structure SpendEntry where
  microUsd : ℕ
  lastUpdate : ℕ
  microUsd_lt : microUsd < UInt64.size

/-- `SpendStoreInner`; a cap of zero is none. -/
structure SpendStore where
  spend : Finmap fun _ : String ↦ SpendEntry
  maxKeys : ℕ

/-- What an addition meets. -/
structure SpendEnv where
  now : ℕ
  /-- What `min_by_key` returns; of entries that are equally old, the order of the map decides. -/
  lru : String

namespace SpendStore

/-- `SpendStore::new`. -/
def new (maxKeys : ℕ) : SpendStore := ⟨∅, maxKeys⟩

variable (store : SpendStore)

/-- The store holds as many keys as it may. -/
def atCapacity : Bool := 0 < store.maxKeys && store.maxKeys ≤ store.spend.keys.card

/-- An addition under the key evicts an entry. -/
def evictsFor (key : String) : Bool := key ∉ store.spend && store.atCapacity

/-- No entry is older than the one under the key. -/
def IsLru (key : String) : Prop :=
  ∃ entry ∈ store.spend.lookup key, ∀ key' ∈ store.spend.keys,
    ∀ entry' ∈ store.spend.lookup key', entry.lastUpdate ≤ entry'.lastUpdate

instance (key : String) : Decidable (store.IsLru key) :=
  match h : store.spend.lookup key with
  | none => isFalse fun ⟨entry, hentry, _⟩ ↦ by simp [h] at hentry
  | some entry =>
    decidable_of_iff (∀ key' ∈ store.spend.keys,
      ∀ entry' ∈ store.spend.lookup key', entry.lastUpdate ≤ entry'.lastUpdate) (by simp [IsLru, h])

/-- `SpendStore::add`. -/
def add (env : SpendEnv) (key : String) (usd : ℚ) : SpendStore :=
  let spend := if store.evictsFor key then store.spend.erase env.lru else store.spend
  let entry := (spend.lookup key).getD ⟨0, env.now, by decide⟩
  let microUsd := min (entry.microUsd + usdToMicro usd) (UInt64.size - 1)
  have hlt : microUsd < UInt64.size := (Nat.min_le_right ..).trans_lt (by decide)
  { store with spend := spend.insert key ⟨microUsd, env.now, hlt⟩ }

/-- `SpendStore::get`. -/
def get (key : String) : ℚ := ((store.spend.lookup key).map (microToUsd ·.microUsd)).getD 0

/-- `SpendStore::reset`. -/
def reset (key : String) : SpendStore := { store with spend := store.spend.erase key }

/-- `SpendStore::reset_all`. -/
def resetAll : SpendStore := { store with spend := ∅ }

/-- The amount under a key. -/
def micro (key : String) : ℕ := ((store.spend.lookup key).map (·.microUsd)).getD 0

theorem get_eq (key : String) : store.get key = microToUsd (store.micro key) := by
  rw [get, micro]
  rcases store.spend.lookup key with - | entry
  · simp [microToUsd]
  · rfl

theorem micro_lt (key : String) : store.micro key < UInt64.size := by
  rw [micro]
  rcases store.spend.lookup key with - | entry
  · decide
  · exact entry.microUsd_lt

variable {store} in
/-- A key for which another is evicted has no entry yet. -/
theorem notMem_of_evictsFor {key : String} (h : store.evictsFor key = true) :
    key ∉ store.spend := by
  rw [evictsFor, Bool.and_eq_true, decide_eq_true_eq] at h
  exact h.1

@[simp] theorem micro_new (maxKeys : ℕ) (key : String) : (new maxKeys).micro key = 0 := rfl

theorem micro_add_self (env : SpendEnv) (key : String) (usd : ℚ) :
    (store.add env key usd).micro key =
      min (store.micro key + usdToMicro usd) (UInt64.size - 1) := by
  simp only [add, micro, Finmap.lookup_insert, Option.map_some, Option.getD_some]
  rcases hevicts : store.evictsFor key with - | -
  · rw [if_neg Bool.false_ne_true]
    rcases store.spend.lookup key with - | entry
    · rfl
    · rfl
  · have hnew : key ∉ store.spend := notMem_of_evictsFor hevicts
    have hnew' : key ∉ store.spend.erase env.lru := fun h ↦ hnew (Finmap.mem_erase.1 h).2
    rw [if_pos rfl, Finmap.lookup_eq_none.2 hnew, Finmap.lookup_eq_none.2 hnew']
    rfl

theorem micro_add_of_ne (env : SpendEnv) {key key' : String} (usd : ℚ) (hne : key' ≠ key) :
    (store.add env key usd).micro key' =
      if store.evictsFor key ∧ key' = env.lru then 0 else store.micro key' := by
  simp only [add, micro, Finmap.lookup_insert_of_ne _ hne]
  rcases store.evictsFor key with - | -
  · simp
  · rcases eq_or_ne key' env.lru with heq | hlru
    · rw [if_pos rfl, if_pos ⟨rfl, heq⟩, heq, Finmap.lookup_erase]
      rfl
    · simp [hlru]

theorem micro_reset (key key' : String) :
    (store.reset key).micro key' = if key' = key then 0 else store.micro key' := by
  rcases eq_or_ne key' key with rfl | hne
  · simp [reset, micro]
  · simp [reset, micro, hne]

@[simp] theorem micro_resetAll (key : String) : store.resetAll.micro key = 0 := by
  simp [resetAll, micro]

end SpendStore

/-! ### The plugin -/

/-- `BudgetConfig`. -/
structure BudgetConfig where
  spendLimitUsd : Option ℚ
  inputPerMTokens : Option ℚ
  outputPerMTokens : Option ℚ
  maxKeys : Option ℕ

/-- `BudgetPlugin`, apart from its store. -/
structure BudgetPlugin where
  spendLimitUsd : ℚ
  inputPerMTokens : ℚ
  outputPerMTokens : ℚ
  nonneg : 0 ≤ spendLimitUsd
  /-- A limit comes with a price. -/
  priced : 0 < spendLimitUsd → inputPerMTokens = 0 → outputPerMTokens ≠ 0

namespace BudgetPlugin

/-- `DEFAULT_MAX_KEYS`. -/
def defaultMaxKeys : ℕ := 10000

/-- `BudgetPlugin::new`, with the store it makes if there is none of its name. -/
def new (config : BudgetConfig) : Except String (BudgetPlugin × SpendStore) :=
  let spendLimitUsd := config.spendLimitUsd.getD 0
  let inputPerMTokens := config.inputPerMTokens.getD 0
  let outputPerMTokens := config.outputPerMTokens.getD 0
  let maxKeys := config.maxKeys.getD defaultMaxKeys
  if hneg : spendLimitUsd < 0 then .error "spend_limit_usd must be >= 0"
  else if hfree : 0 < spendLimitUsd ∧ inputPerMTokens = 0 ∧ outputPerMTokens = 0 then
    .error ("spend_limit_usd is set but both input_per_m_tokens and output_per_m_tokens are 0; " ++
      "cost will always be 0 and the budget limit will never be enforced")
  else
    .ok
      ({ spendLimitUsd, inputPerMTokens, outputPerMTokens
         nonneg := not_lt.1 hneg
         priced := fun hlimit hinput houtput ↦ hfree ⟨hlimit, hinput, houtput⟩ },
        .new maxKeys)

variable (plugin : BudgetPlugin)

/-- `BudgetPlugin::calculate_cost`. -/
def calculateCost (usage : Usage) : ℚ :=
  usage.promptTokens / 1000000 * plugin.inputPerMTokens +
    usage.completionTokens / 1000000 * plugin.outputPerMTokens

/-- `BudgetPlugin::spend_key`. -/
def spendKey (ctx : PluginContext) : Option String :=
  match ctx.auth.bind fun auth ↦ auth.keyId <|> auth.userId with
  | some id => some id
  | none =>
    match ctx.metadata.get "api_key" with
    | some (.string key) => if key.isEmpty then none else some key
    | _ => none

/-- `BudgetPlugin::effective_limit`. -/
def effectiveLimit (perPrincipal : Option ℚ) : ℚ :=
  match perPrincipal with
  | some limit => if 0 < limit then limit else plugin.spendLimitUsd
  | none => plugin.spendLimitUsd

/-- `BudgetPlugin::check_budget`. -/
def checkBudget (store : SpendStore) (key : String) (perPrincipal : Option ℚ) :
    Except PluginError Unit :=
  let limit := plugin.effectiveLimit perPrincipal
  if limit ≤ 0 then .ok ()
  else
    let current := store.get key
    if limit ≤ current then
      .error (.rejected "budget"
        ("budget exceeded: spent $" ++ formatFixed 4 current ++ " of $" ++ formatFixed 2 limit ++
          " limit") .budgetExceeded)
    else .ok ()

/-- `BudgetPlugin::record_cost`. -/
def recordCost (store : SpendStore) (env : SpendEnv) (ctx : PluginContext) (key : String) :
    SpendStore :=
  match ctx.response.bind (·.usage) with
  | none => store
  | some usage =>
    let cost := plugin.calculateCost usage
    if 0 < cost then store.add env key cost else store

/-- `BudgetPlugin::execute`. -/
def execute (store : SpendStore) (env : SpendEnv) (ctx : PluginContext) :
    SpendStore × Except PluginError Unit :=
  match spendKey ctx with
  | none => (store, .ok ())
  | some key =>
    if ctx.response.isSome then (plugin.recordCost store env ctx key, .ok ())
    else (store, plugin.checkBudget store key (ctx.auth.bind (·.budgetLimitUsd)))

/-- The limit of a request. -/
def limitFor (ctx : PluginContext) : ℚ := plugin.effectiveLimit (ctx.auth.bind (·.budgetLimitUsd))

/-- What the response to a request costs its principal. -/
def charge (ctx : PluginContext) (response : ChatCompletionResponse) : Option (String × ℚ) :=
  (spendKey ctx).bind fun key ↦ response.usage.map fun usage ↦ (key, plugin.calculateCost usage)

variable {plugin} {store : SpendStore}

theorem checkBudget_eq_ok_iff {key : String} {perPrincipal : Option ℚ} :
    plugin.checkBudget store key perPrincipal = .ok () ↔
      plugin.effectiveLimit perPrincipal ≤ 0 ∨
        store.get key < plugin.effectiveLimit perPrincipal := by
  simp only [checkBudget]
  split
  · next hfree => exact iff_of_true rfl (.inl hfree)
  · next hlimit =>
    split
    · next hspent => simp [hlimit, not_lt.2 hspent]
    · next hroom => simp [not_le.1 hroom]

variable (plugin store) in
/-- A request passes the check unless its principal has spent its limit. -/
theorem execute_before (env : SpendEnv) {ctx : PluginContext} (h : ctx.response = none) :
    (plugin.execute store env ctx).1 = store ∧
      ((plugin.execute store env ctx).2 = .ok () ↔
        ∀ key ∈ spendKey ctx, plugin.limitFor ctx ≤ 0 ∨ store.get key < plugin.limitFor ctx) := by
  rw [execute]
  rcases spendKey ctx with - | key
  · simp
  · simp [h, checkBudget_eq_ok_iff, limitFor]

theorem spendKey_response (ctx : PluginContext) (response : Option ChatCompletionResponse) :
    spendKey { ctx with response } = spendKey ctx := rfl

theorem execute_after (env : SpendEnv) (ctx : PluginContext) (response : ChatCompletionResponse) :
    (plugin.execute store env { ctx with response := some response }).1 =
      match plugin.charge ctx response with
      | none => store
      | some (key, cost) => if 0 < cost then store.add env key cost else store := by
  rw [execute, spendKey_response, charge]
  rcases spendKey ctx with - | key
  · rfl
  · rcases husage : response.usage with - | usage
    · simp [recordCost, husage]
    · simp [recordCost, husage]

/-! ### In the manager -/

/-- The plugin as the manager runs it, for one state of its store. -/
def toPlugin (plugin : BudgetPlugin) (store : SpendStore) (env : SpendEnv) : Plugin where
  name := "budget"
  stage := .beforeRequest
  alsoAfterRequest := true
  execute ctx := (ctx, (plugin.execute store env ctx).2)

/-- A request that the plugins before it let through is let through exactly when the check passes,
and it meets the plugin again after its response. -/
theorem register_toPlugin (manager : PluginManager) (env : SpendEnv) {ctx ctx' : PluginContext}
    (h : manager.runBefore ctx = (ctx', .ok ())) :
    (manager.register (plugin.toPlugin store env)).runBefore ctx =
        (ctx', (plugin.execute store env ctx').2) ∧
      plugin.toPlugin store env ∈ (manager.register (plugin.toPlugin store env)).afterRequest := by
  constructor
  · show runPlugins (manager.beforeRequest ++ [plugin.toPlugin store env]) ctx = _
    rw [runPlugins_append, show runPlugins manager.beforeRequest ctx = (ctx', .ok ()) from h]
    simp only [runPlugins, toPlugin]
    rcases (plugin.execute store env ctx').2 with e | u
    · rfl
    · rfl
  · exact List.mem_append_right _ (List.mem_singleton_self _)

end BudgetPlugin

end Himadri
