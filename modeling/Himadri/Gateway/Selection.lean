import Mathlib.Algebra.Order.Ring.Rat
import Himadri.Core.Lists
import Himadri.Gateway.Policy

/-!
# Target selection

`Strategy::select_ordered` and `Gateway::select_targets`. The draws of the random strategies are an
argument, as fractions of the total weight they are drawn from, and so are `str::to_lowercase` and
`Regex::is_match`.

Five of the eight modes order the targets they are given. The other three put a target of the
strategy section in front (`StrategyConfig.inserted`), and it is the only one that can fail to be
one of these (`mem_selectOrdered`).
-/

namespace Himadri

/-- The functions of libraries that selection uses, and its draws: one for the variant of an A/B
test, and one for each round of load balancing, by the number of targets left in it. -/
structure SelectionEnv where
  toLowercase : String → String
  isMatch : Regex → String → Bool
  variantDraw : ℚ
  roundDraw : ℕ → ℚ

/-- `Strategy::extract_user_content`. -/
def extractUserContent (request : ChatCompletionRequest) : String :=
  " ".intercalate ((request.messages.filter (·.role == .user)).filterMap fun m ↦
    m.content.map (·.flatText))

/-- `InMemoryLatencyStore::get_avg_latency`. -/
def LatencyStore.getAvgLatency (store : LatencyStore) (provider : String) : ℕ :=
  match store.stats.get provider with
  | some entry => if entry.count = 0 then UInt64.size - 1 else entry.sum / entry.count
  | none => UInt64.size - 1

/-! ### Ordering the targets -/

/-- The weight of a target in load balancing. -/
def Target.share (target : Target) : ℚ := max target.weight 0

/-- The loop over a round of load balancing: the index `r` falls on, the last one by default. -/
def chooseIndex (r : ℚ) : List Target → ℕ
  | [] => 0
  | [_] => 0
  | t :: rest => if r - t.share ≤ 0 then 0 else chooseIndex (r - t.share) rest + 1

/-- The index one round of load balancing takes. -/
def roundIndex (draw : ℚ) (remaining : List Target) : ℕ :=
  if (remaining.map (·.share)).sum ≤ 0 then 0
  else chooseIndex (draw * (remaining.map (·.share)).sum) remaining

/-- The rounds of load balancing, `n` targets being left. -/
def loadBalanceOrder (draw : ℕ → ℚ) : (n : ℕ) → List Target → List Target
  | 0, _ => []
  | n + 1, remaining =>
    match remaining[roundIndex (draw (n + 1)) remaining]? with
    | some t =>
      t :: loadBalanceOrder draw n (remaining.eraseIdx (roundIndex (draw (n + 1)) remaining))
    | none => []

/-- The order of `Strategy::LeastLatency`. -/
def leastLatencyOrder (store : LatencyStore) (targets : List Target) : List Target :=
  targets.mergeSort fun a b ↦
    decide (store.getAvgLatency a.provider ≤ store.getAvgLatency b.provider)

/-- The order of `Strategy::CostOptimized`. -/
def costOrder (targets : List Target) : List Target :=
  targets.mergeSort fun a b ↦ decide (a.weight ≤ b.weight)

/-! ### Putting one in front -/

/-- `Strategy::matches_condition`. -/
def ConditionRule.matches (rule : ConditionRule) (request : ChatCompletionRequest) : Bool :=
  match rule.key with
  | .model => request.model == rule.value
  | .modelPrefix => Text.startsWith request.model rule.value

/-- `Strategy::matches_content_rule`. -/
def ContentRule.matches (env : SelectionEnv) (rule : ContentRule)
    (request : ChatCompletionRequest) : Bool :=
  match rule.conditionType with
  | .promptContains =>
    Text.contains (env.toLowercase (extractUserContent request)) (env.toLowercase rule.value)
  | .promptNotContains =>
    !Text.contains (env.toLowercase (extractUserContent request)) (env.toLowercase rule.value)
  | .promptRegex =>
    match rule.compiledRegex with
    | some regex => env.isMatch regex (extractUserContent request)
    | none => false

/-- The weight of a variant. -/
def ABTestVariant.share (variant : ABTestVariant) : ℚ :=
  if variant.weight ≤ 0 then 1 else variant.weight

/-- The loop over the variants: the first whose cumulative weight exceeds `r`. -/
def pickVariant (r : ℚ) : (cumulative : ℚ) → List ABTestVariant → Option ABTestVariant
  | _, [] => none
  | cumulative, v :: rest =>
    if r < cumulative + v.share then some v else pickVariant r (cumulative + v.share) rest

/-- The draw among the variants of `Strategy::select_ab_test_variant`; the last one is the safety
net. -/
def drawVariant (draw : ℚ) (variants : List ABTestVariant) : Option ABTestVariant :=
  (pickVariant (draw * (variants.map (·.share)).sum) 0 variants).or variants.getLast?

/-- `Strategy::select_ab_test_variant(..).ok()`. -/
def selectAbTestVariant (draw : ℚ) (variants : List ABTestVariant) (targets : List Target) :
    Option Target :=
  if variants.isEmpty then targets.head? else (drawVariant draw variants).map (·.target)

/-- `Strategy::ordered_with_primary`. -/
def orderedWithPrimary (primary : Option Target) (targets : List Target) : List Target :=
  primary.toList ++ targets

/-- The identity of an endpoint in `Strategy::dedup_targets`. -/
def Target.endpoint (t : Target) : Option String × String × Option String × Option String :=
  (t.id, t.provider, t.apiKeyEnv, t.baseUrl)

/-- `Strategy::dedup_targets`. -/
def dedupTargets (targets : List Target) : List Target := Lists.firstBy Target.endpoint [] targets

namespace Strategy

variable (env : SelectionEnv) (request : ChatCompletionRequest)

/-- The order of `select_ordered` before duplicates are dropped. -/
def arrange (targets : List Target) : Strategy → List Target
  | .single => targets.head?.toList
  | .fallback => targets
  | .loadBalance => loadBalanceOrder env.roundDraw targets.length targets
  | .leastLatency store => leastLatencyOrder store targets
  | .costOptimized => costOrder targets
  | .conditional rules other =>
    orderedWithPrimary (((rules.find? (·.matches request)).map (·.target)).or other) targets
  | .contentBased rules other =>
    orderedWithPrimary (((rules.find? (·.matches env request)).map (·.target)).or other) targets
  | .abTest variants =>
    orderedWithPrimary (selectAbTestVariant env.variantDraw variants targets) targets

/-- `Strategy::select_ordered`. -/
def selectOrdered (strategy : Strategy) (targets : List Target) :
    Except GatewayError (List Target) :=
  if targets.isEmpty then .error (.internal "No targets configured")
  else .ok (dedupTargets (strategy.arrange env request targets))

end Strategy

/-- The live targets that serve the model. -/
def Gateway.eligible (g : Gateway) (model : String) : List Target :=
  g.targets.filter (targetServesModel · model)

/-- `Gateway::select_targets`. -/
def Gateway.selectTargets (g : Gateway) (env : SelectionEnv) (request : ChatCompletionRequest)
    (auth : Option AuthContext) : Except GatewayError (List Target) :=
  match g.eligible request.model with
  | [] =>
    .error (.notFound ("No provider is configured to serve model '" ++ request.model ++ "'"))
  | eligible =>
    match g.strategy.selectOrdered env request eligible with
    | .error e => .error e
    | .ok ordered => filterTargetsByRbac g.config auth ordered

theorem dedupTargets_ne_nil {targets : List Target} (h : targets ≠ []) :
    dedupTargets targets ≠ [] := by
  cases targets with
  | nil => exact absurd rfl h
  | cons t targets =>
    rw [dedupTargets, Lists.firstBy_cons]
    exact List.cons_ne_nil _ _

/-! ### What can be selected -/

theorem chooseIndex_lt {r : ℚ} {remaining : List Target} (h : remaining ≠ []) :
    chooseIndex r remaining < remaining.length := by
  induction remaining generalizing r with
  | nil => exact absurd rfl h
  | cons t rest ih =>
    cases rest with
    | nil => exact Nat.zero_lt_one
    | cons u rest =>
      show (if r - t.share ≤ 0 then 0 else chooseIndex (r - t.share) (u :: rest) + 1) < _
      split
      · exact Nat.succ_pos _
      · exact Nat.succ_lt_succ (ih (List.cons_ne_nil u rest))

theorem roundIndex_lt (draw : ℚ) {remaining : List Target} (h : remaining ≠ []) :
    roundIndex draw remaining < remaining.length := by
  rw [roundIndex]
  split
  · exact List.length_pos_iff.2 h
  · exact chooseIndex_lt h

/-- Load balancing only reorders. -/
theorem loadBalanceOrder_perm {draw : ℕ → ℚ} {n : ℕ} {remaining : List Target}
    (h : remaining.length = n) : (loadBalanceOrder draw n remaining).Perm remaining := by
  induction n generalizing remaining with
  | zero =>
    rw [List.length_eq_zero_iff.1 h]
    exact .nil
  | succ n ih =>
    have hne : remaining ≠ [] := List.ne_nil_of_length_eq_add_one h
    have hlt := roundIndex_lt (draw (n + 1)) hne
    simp only [loadBalanceOrder, List.getElem?_eq_getElem hlt]
    have hrest : (remaining.eraseIdx (roundIndex (draw (n + 1)) remaining)).length = n := by
      rw [List.length_eraseIdx_of_lt hlt, h, Nat.add_sub_cancel]
    exact ((ih hrest).cons _).trans (List.getElem_cons_eraseIdx_perm hlt)

namespace Strategy

variable {env : SelectionEnv} {request : ChatCompletionRequest} {strategy : Strategy}
  {targets : List Target}

/-- The target a strategy puts in front, whatever it is given: that of the first matching rule or
the fallback, or that of the variant drawn. -/
def inserted (env : SelectionEnv) (request : ChatCompletionRequest) : Strategy → Option Target
  | .conditional rules other => ((rules.find? (·.matches request)).map (·.target)).or other
  | .contentBased rules other => ((rules.find? (·.matches env request)).map (·.target)).or other
  | .abTest variants => (drawVariant env.variantDraw variants).map (·.target)
  | _ => none

/-- The strategies order what they are given, and three insert a target of their own. -/
theorem mem_arrange {t : Target} (h : t ∈ strategy.arrange env request targets) :
    t ∈ targets ∨ strategy.inserted env request = some t := by
  cases strategy with
  | single => exact .inl (List.mem_of_mem_head? (Option.mem_toList.1 h))
  | fallback => exact .inl h
  | loadBalance => exact .inl ((loadBalanceOrder_perm rfl).mem_iff.1 h)
  | leastLatency store => exact .inl ((List.mergeSort_perm _ _).mem_iff.1 h)
  | costOptimized => exact .inl ((List.mergeSort_perm _ _).mem_iff.1 h)
  | conditional rules other =>
    exact (List.mem_append.1 h).symm.imp_right Option.mem_toList.1
  | contentBased rules other =>
    exact (List.mem_append.1 h).symm.imp_right Option.mem_toList.1
  | abTest variants =>
    rcases List.mem_append.1 h with hfront | hlive
    · have hpick := Option.mem_toList.1 hfront
      rw [selectAbTestVariant] at hpick
      split at hpick
      · exact .inl (List.mem_of_mem_head? hpick)
      · exact .inr hpick
    · exact .inl hlive

/-- Something is given, so something is tried. -/
theorem arrange_ne_nil (h : targets ≠ []) : strategy.arrange env request targets ≠ [] := by
  have hperm {l : List Target} (hl : l.Perm targets) : l ≠ [] := by
    rintro rfl
    exact h (List.nil_perm.1 hl)
  cases strategy with
  | single => exact mt (fun hnil ↦ List.head?_eq_none_iff.1 (Option.toList_eq_nil_iff.1 hnil)) h
  | fallback => exact h
  | loadBalance => exact hperm (loadBalanceOrder_perm rfl)
  | leastLatency store => exact hperm (List.mergeSort_perm _ _)
  | costOptimized => exact hperm (List.mergeSort_perm _ _)
  | conditional rules other => exact List.append_ne_nil_of_right_ne_nil _ h
  | contentBased rules other => exact List.append_ne_nil_of_right_ne_nil _ h
  | abTest variants => exact List.append_ne_nil_of_right_ne_nil _ h

/-- The inserted target comes first. -/
theorem arrange_of_inserted (targets : List Target) {t : Target}
    (h : strategy.inserted env request = some t) :
    ∃ rest, strategy.arrange env request targets = t :: rest := by
  cases strategy with
  | conditional rules other => exact ⟨targets, by rw [arrange, ← inserted, h]; rfl⟩
  | contentBased rules other => exact ⟨targets, by rw [arrange, ← inserted, h]; rfl⟩
  | abTest variants =>
    have hne : variants.isEmpty = false := by
      cases variants with
      | nil => cases h
      | cons v variants => rfl
    have hpick : selectAbTestVariant env.variantDraw variants targets = some t := by
      rw [selectAbTestVariant, hne]
      exact h
    exact ⟨targets, by rw [arrange, hpick]; rfl⟩
  | _ => cases h

end Strategy

namespace Gateway

variable {g : Gateway} {env : SelectionEnv} {request : ChatCompletionRequest}
  {auth : Option AuthContext}

theorem mem_eligible {model : String} {t : Target} :
    t ∈ g.eligible model ↔ t ∈ g.targets ∧ targetServesModel t model = true := List.mem_filter

theorem selectTargets_eq_ok {allowed : List Target} :
    g.selectTargets env request auth = .ok allowed ↔
      g.eligible request.model ≠ [] ∧
        filterTargetsByRbac g.config auth
          (dedupTargets (g.strategy.arrange env request (g.eligible request.model))) =
            .ok allowed := by
  unfold selectTargets
  split
  · next hnil => simp [hnil]
  · next hne =>
    have hsome : (g.eligible request.model).isEmpty = false := List.isEmpty_eq_false_iff.2 hne
    rw [Strategy.selectOrdered, hsome]
    exact (and_iff_right hne).symm

theorem selectTargets_ne_nil {allowed : List Target}
    (h : g.selectTargets env request auth = .ok allowed) : allowed ≠ [] := by
  obtain ⟨hne, hfilter⟩ := selectTargets_eq_ok.1 h
  exact ne_nil_of_filterTargetsByRbac (dedupTargets_ne_nil (Strategy.arrange_ne_nil hne)) hfilter

/-- The strategy's order of the live targets that serve the model holds one the principal may
use. -/
def Routable (g : Gateway) (env : SelectionEnv) (request : ChatCompletionRequest)
    (auth : Option AuthContext) : Prop :=
  ∃ ordered, g.strategy.selectOrdered env request (g.eligible request.model) = .ok ordered ∧
    ∃ t ∈ ordered, grants g.config auth t.provider = true

/-- Selection succeeds exactly when there is something to route to. -/
theorem routable_iff : g.Routable env request auth ↔
    ∃ allowed, g.selectTargets env request auth = .ok allowed := by
  simp only [selectTargets_eq_ok]
  constructor
  · rintro ⟨ordered, hordered, t, ht, hgrants⟩
    rw [Strategy.selectOrdered] at hordered
    split at hordered
    · cases hordered
    · next hne =>
      obtain rfl := Except.ok.inj hordered
      refine ⟨_, mt List.isEmpty_iff.2 hne, filterTargetsByRbac_eq_ok.2 ⟨rfl, fun _ _ ↦ ?_⟩⟩
      exact List.ne_nil_of_mem (List.mem_filter.2 ⟨ht, hgrants⟩)
  · rintro ⟨allowed, hne, hfilter⟩
    have hsome : (g.eligible request.model).isEmpty = false := List.isEmpty_eq_false_iff.2 hne
    refine ⟨_, by rw [Strategy.selectOrdered, hsome]; rfl, ?_⟩
    obtain ⟨t, ht⟩ := List.exists_mem_of_ne_nil _
      (selectTargets_ne_nil (selectTargets_eq_ok.2 ⟨hne, hfilter⟩))
    exact ⟨t, filterTargetsByRbac_subset hfilter t ht⟩

/-- A selected target is granted, and a live one that serves the model unless it was inserted. -/
theorem mem_selectTargets {allowed : List Target} {t : Target}
    (h : g.selectTargets env request auth = .ok allowed) (ht : t ∈ allowed) :
    grants g.config auth t.provider = true ∧
      (t ∈ g.eligible request.model ∨ g.strategy.inserted env request = some t) := by
  obtain ⟨-, hfilter⟩ := selectTargets_eq_ok.1 h
  obtain ⟨hmem, hgrants⟩ := filterTargetsByRbac_subset hfilter t ht
  exact ⟨hgrants, Strategy.mem_arrange ((Lists.firstBy_sublist _ _).mem hmem)⟩

/-- What the strategy inserts is selected if the roles grant it, whatever it serves. -/
theorem exists_selectTargets_of_inserted {t : Target} (hne : g.eligible request.model ≠ [])
    (hinserted : g.strategy.inserted env request = some t)
    (hgrants : grants g.config auth t.provider = true) :
    ∃ allowed, g.selectTargets env request auth = .ok allowed ∧ t ∈ allowed := by
  obtain ⟨rest, hrest⟩ := Strategy.arrange_of_inserted (g.eligible request.model) hinserted
  -- it comes first, and the filter keeps it
  have hkept : t ∈ (dedupTargets (g.strategy.arrange env request
      (g.eligible request.model))).filter (grants g.config auth ·.provider) := by
    rw [dedupTargets, hrest, Lists.firstBy_cons]
    exact List.mem_filter.2 ⟨List.mem_cons_self, hgrants⟩
  exact ⟨_, selectTargets_eq_ok.2 ⟨hne, filterTargetsByRbac_eq_ok.2
    ⟨rfl, fun _ _ ↦ List.ne_nil_of_mem hkept⟩⟩, hkept⟩

/-- Every selected target is a live one that serves the model exactly when the target the strategy
inserts is, if it inserts one at all and the principal may use its provider. -/
theorem selected_serve_iff :
    (∀ allowed, g.selectTargets env request auth = .ok allowed →
        ∀ t ∈ allowed, targetServesModel t request.model = true ∧ t ∈ g.targets) ↔
      ((∃ t ∈ g.targets, targetServesModel t request.model = true) →
        ∀ t, g.strategy.inserted env request = some t → grants g.config auth t.provider = true →
          targetServesModel t request.model = true ∧ t ∈ g.targets) := by
  constructor
  · rintro h ⟨u, hu, hserves⟩ t hinserted hgrants
    have hne : g.eligible request.model ≠ [] := List.ne_nil_of_mem (mem_eligible.2 ⟨hu, hserves⟩)
    obtain ⟨allowed, hallowed, ht⟩ := exists_selectTargets_of_inserted hne hinserted hgrants
    exact h allowed hallowed t ht
  · intro h allowed hallowed t ht
    obtain ⟨hgrants, hlive | hinserted⟩ := mem_selectTargets hallowed ht
    · exact (mem_eligible.1 hlive).symm
    · obtain ⟨u, hu⟩ := List.exists_mem_of_ne_nil _ (selectTargets_eq_ok.1 hallowed).1
      exact h ⟨u, mem_eligible.1 hu⟩ t hinserted hgrants

/-- A configuration whose one rule sends a model to an endpoint that does not list it and that the
targets no longer contain. -/
def ruledToGone : Config :=
  { Config.default with
    strategy :=
      { StrategyConfig.default with
        mode := .conditional
        conditionalRules :=
          [⟨.model, "gpt-4o",
            { Target.ofProvider "openai" with
              id := some "ep-1", models := some ["gpt-4o-mini"] }⟩] } }

theorem selects_what_does_not_serve :
    ¬ ∀ allowed,
      (Gateway.new (fun _ ↦ none) ruledToGone).selectTargets ⟨id, fun _ _ ↦ false, 0, fun _ ↦ 0⟩
          (.ofMessages "gpt-4o" [.user "hello"]) none = .ok allowed →
        ∀ t ∈ allowed, targetServesModel t "gpt-4o" = true ∧ t ∈ ruledToGone.targets := by
  intro h
  have hfirst := h _ rfl _ List.mem_cons_self
  exact absurd hfirst.1 (by decide)

end Gateway

end Himadri
