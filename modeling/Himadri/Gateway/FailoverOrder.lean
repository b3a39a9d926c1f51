import Mathlib.Algebra.Order.BigOperators.Group.List
import Mathlib.Tactic.Linarith
import Himadri.Gateway.Selection

/-!
# The failover order of a strategy

What each mode of `Strategy::select_ordered` makes of a list of targets that is not empty. The order
holds no endpoint twice in any mode. What is in it, and where, depends on the mode
(`Strategy.Orders`): all endpoints but in `single`, with one of the strategy section in front in the
three modes that have one.
-/

namespace Himadri

/-- Targets of the list, with each of its endpoints. -/
structure OfEachEndpoint (targets ordered : List Target) : Prop where
  subset : ordered ⊆ targets
  complete : ∀ t ∈ targets, t.endpoint ∈ ordered.map Target.endpoint

/-- A list led by a target, or by the first of the list where there is none, and then the endpoints
that are left, each by its first target. -/
def LedBy (primary : Option Target) (targets ordered : List Target) : Prop :=
  ∃ t rest, ordered = t :: rest ∧ primary.or targets.head? = some t ∧
    Lists.FirstsOf Target.endpoint (targets.filter fun u ↦ decide (u.endpoint ≠ t.endpoint)) rest

/-- The variant drawn is the one whose part of the total weight the draw falls on. -/
def DrawnByWeight (draw : ℚ) (variants : List ABTestVariant) : Prop :=
  ∃ front v back, variants = front ++ v :: back ∧ drawVariant draw variants = some v ∧
    (front.map (·.share)).sum ≤ draw * (variants.map (·.share)).sum ∧
    draw * (variants.map (·.share)).sum < (front.map (·.share)).sum + v.share

/-- What an order is, by mode. -/
def Strategy.Orders (env : SelectionEnv) (request : ChatCompletionRequest)
    (targets ordered : List Target) : Strategy → Prop
  | .single => ∃ t, targets.head? = some t ∧ ordered = [t]
  | .fallback => Lists.FirstsOf Target.endpoint targets ordered
  | .loadBalance => OfEachEndpoint targets ordered
  | .leastLatency store =>
    OfEachEndpoint targets ordered ∧
      Lists.SortedBy (fun t ↦ store.getAvgLatency t.provider) targets ordered
  | .costOptimized =>
    OfEachEndpoint targets ordered ∧ Lists.SortedBy (fun t ↦ t.weight) targets ordered
  | .conditional rules other =>
    LedBy (((rules.find? (·.matches request)).map (·.target)).or other) targets ordered
  | .contentBased rules other =>
    LedBy (((rules.find? (·.matches env request)).map (·.target)).or other) targets ordered
  | .abTest variants =>
    LedBy ((drawVariant env.variantDraw variants).map (·.target)) targets ordered ∧
      (variants ≠ [] → 0 ≤ env.variantDraw → env.variantDraw < 1 →
        DrawnByWeight env.variantDraw variants)

section Orders

variable {targets arranged : List Target}

theorem firstsOf_dedupTargets (targets : List Target) :
    Lists.FirstsOf Target.endpoint targets (dedupTargets targets) := Lists.firstsOf_firstBy targets

/-- Dropping duplicates of a list that was reordered. -/
theorem OfEachEndpoint.of_perm (h : arranged.Perm targets) :
    OfEachEndpoint targets (dedupTargets arranged) where
  subset _ ht := h.mem_iff.1 ((firstsOf_dedupTargets arranged).sublist.mem ht)
  complete _ ht := (firstsOf_dedupTargets arranged).complete (h.mem_iff.2 ht)

/-- The order of the modes that sort by a measure. -/
theorem sortedBy_dedupTargets {ι : Type*} [LinearOrder ι] {f : Target → ι}
    {le : Target → Target → Bool} (hle : ∀ a b, le a b = true ↔ f a ≤ f b)
    (targets : List Target) :
    OfEachEndpoint targets (dedupTargets (targets.mergeSort le)) ∧
      Lists.SortedBy f targets (dedupTargets (targets.mergeSort le)) :=
  ⟨.of_perm (List.mergeSort_perm targets le),
    (Lists.sortedBy_mergeSort f hle targets).sublist (firstsOf_dedupTargets _).sublist⟩

/-- The target in front is kept, and it is what is dropped of the list behind it. -/
theorem dedupTargets_cons (t : Target) (targets : List Target) :
    dedupTargets (t :: targets) =
      t :: dedupTargets (targets.filter fun u ↦ decide (u.endpoint ≠ t.endpoint)) := by
  rw [dedupTargets, Lists.firstBy_cons, dedupTargets]
  refine congrArg (t :: ·) (Lists.firstBy_eq_filter (fun x ↦ ?_) targets)
  rw [List.mem_singleton, or_iff_left List.not_mem_nil]

theorem ledBy_dedupTargets (primary : Option Target) (h : targets ≠ []) :
    LedBy primary targets (dedupTargets (orderedWithPrimary primary targets)) := by
  rcases primary with - | t
  · obtain ⟨t, targets, rfl⟩ := List.exists_cons_of_ne_nil h
    refine ⟨t, _, dedupTargets_cons t targets, rfl, ?_⟩
    rw [List.filter_cons_of_neg (by simp)]
    exact firstsOf_dedupTargets _
  · exact ⟨t, _, dedupTargets_cons t targets, rfl, firstsOf_dedupTargets _⟩

/-- Where no variant is configured, the first target leads. -/
theorem selectAbTestVariant_or {draw : ℚ} {variants : List ABTestVariant} :
    (selectAbTestVariant draw variants targets).or targets.head? =
      ((drawVariant draw variants).map (·.target)).or targets.head? := by
  rw [selectAbTestVariant]
  rcases variants with - | ⟨v, variants⟩
  · rw [List.isEmpty_nil, if_pos rfl, Option.or_self]
    rfl
  · rfl

theorem ABTestVariant.share_pos (v : ABTestVariant) : 0 < v.share := by
  rw [share]
  split_ifs with h
  · exact one_pos
  · exact not_le.1 h

/-- The loop stops at the variant whose part holds `r`. -/
theorem pickVariant_spec {r : ℚ} (cumulative : ℚ) (variants : List ABTestVariant)
    (hlow : cumulative ≤ r) (hhigh : r < cumulative + (variants.map (·.share)).sum) :
    ∃ front v back, variants = front ++ v :: back ∧ pickVariant r cumulative variants = some v ∧
      cumulative + (front.map (·.share)).sum ≤ r ∧
      r < cumulative + (front.map (·.share)).sum + v.share := by
  induction variants generalizing cumulative with
  | nil =>
    rw [List.map_nil, List.sum_nil, add_zero] at hhigh
    exact absurd hlow (not_le.2 hhigh)
  | cons v variants ih =>
    by_cases hr : r < cumulative + v.share
    · refine ⟨[], v, variants, rfl, if_pos hr, ?_, ?_⟩
      · rwa [List.map_nil, List.sum_nil, add_zero]
      · rwa [List.map_nil, List.sum_nil, add_zero]
    · rw [List.map_cons, List.sum_cons, ← add_assoc] at hhigh
      obtain ⟨front, w, back, rfl, hpick, hfront, hw⟩ := ih _ (not_lt.1 hr) hhigh
      refine ⟨v :: front, w, back, rfl, (if_neg hr).trans hpick, ?_, ?_⟩
      · rwa [List.map_cons, List.sum_cons, ← add_assoc]
      · rwa [List.map_cons, List.sum_cons, ← add_assoc]

theorem drawnByWeight {draw : ℚ} {variants : List ABTestVariant} (h : variants ≠ [])
    (hlow : 0 ≤ draw) (hhigh : draw < 1) : DrawnByWeight draw variants := by
  have hpos : 0 < (variants.map (·.share)).sum := by
    refine List.sum_pos _ (List.forall_mem_map.2 fun v _ ↦ v.share_pos) ?_
    exact mt List.map_eq_nil_iff.1 h
  obtain ⟨front, v, back, heq, hpick, hfront, hv⟩ :=
    pickVariant_spec 0 variants (mul_nonneg hlow hpos.le)
      (by rw [zero_add]; exact mul_lt_of_lt_one_left hpos hhigh)
  rw [zero_add] at hfront hv
  refine ⟨front, v, back, heq, ?_, hfront, hv⟩
  rw [drawVariant, hpick, Option.some_or]

end Orders

end Himadri
