import Himadri.Gateway.FailoverOrder

/-!
# Weighted choice

Which draws pick which target in a round of load balancing, and which variant in an A/B test. Each
gets its weight in both. The loop over the targets compares without strictness, so the draws of a
target are open below and closed above, but for the first one: it also gets the draw 0, whatever its
weight. A target of no weight is picked before one that has some exactly there
(`weighted_choice_iff`).
-/

namespace Himadri

/-- A set of draws that is an interval, but for its ends, of some length. -/
def HasLength (draws : Set ℚ) (length : ℚ) : Prop :=
  ∃ a b, a ≤ b ∧ b - a = length ∧ Set.Ioo a b ⊆ draws ∧ draws ⊆ Set.Icc a b

/-- The total of the first weights. -/
def weightBefore (i : ℕ) (weights : List ℚ) : ℚ := (weights.take i).sum

section WeightBefore

variable {weights : List ℚ} {i : ℕ}

theorem weightBefore_cons (i : ℕ) (w : ℚ) (weights : List ℚ) :
    weightBefore (i + 1) (w :: weights) = w + weightBefore i weights := by
  rw [weightBefore, List.take_succ_cons, List.sum_cons]
  rfl

theorem weightBefore_succ (h : i < weights.length) :
    weightBefore (i + 1) weights = weightBefore i weights + weights[i] := by
  rw [weightBefore, List.take_succ_eq_append_getElem h, List.sum_append, List.sum_singleton]
  rfl

theorem weightBefore_nonneg (h : ∀ w ∈ weights, 0 ≤ w) (i : ℕ) : 0 ≤ weightBefore i weights :=
  List.sum_nonneg fun w hw ↦ h w (List.mem_of_mem_take hw)

/-- The first weights are no more than all of them. -/
theorem weightBefore_le (h : ∀ w ∈ weights, 0 ≤ w) (i : ℕ) :
    weightBefore i weights ≤ weights.sum := by
  have hsplit : weights.sum = weightBefore i weights + (weights.drop i).sum := by
    rw [weightBefore, ← List.sum_append, List.take_append_drop]
  have hrest : 0 ≤ (weights.drop i).sum :=
    List.sum_nonneg fun w hw ↦ h w (List.mem_of_mem_drop hw)
  linarith

/-- What is picked by the draws between the weights before it and with it has the length of its
weight, whichever way the ends fall. -/
theorem hasLength_of_bounds (h : ∀ w ∈ weights, 0 ≤ w) (hi : i < weights.length) {picks : ℚ → Prop}
    (hpicks : ∀ r, weightBefore i weights < r → r < weightBefore (i + 1) weights → picks r)
    (hbounds : ∀ r ∈ Set.Ico 0 weights.sum, picks r →
      weightBefore i weights ≤ r ∧ r ≤ weightBefore (i + 1) weights) :
    HasLength {r | r ∈ Set.Ico 0 weights.sum ∧ picks r} weights[i] := by
  have hsucc := weightBefore_succ hi
  have hweight := h weights[i] (List.getElem_mem hi)
  have hle := weightBefore_le h (i + 1)
  have hnonneg := weightBefore_nonneg h i
  refine ⟨weightBefore i weights, weightBefore (i + 1) weights, by linarith, by linarith,
    fun r hr ↦ ?_, fun r hr ↦ hbounds r hr.1 hr.2⟩
  exact ⟨⟨by linarith [hr.1], by linarith [hr.2]⟩, hpicks r hr.1 hr.2⟩

end WeightBefore

/-! ### Load balancing -/

/-- The weights of the targets, as they are counted. -/
def shares (targets : List Target) : List ℚ := targets.map (·.share)

section LoadBalance

variable {targets : List Target} {t : Target} {i : ℕ} {r : ℚ}

theorem Target.share_pos_iff : 0 < t.share ↔ 0 < t.weight := by
  rw [share, lt_max_iff, or_iff_left (lt_irrefl 0)]

theorem shares_nonneg (targets : List Target) : ∀ w ∈ shares targets, 0 ≤ w :=
  List.forall_mem_map.2 fun _ _ ↦ le_max_right _ _

/-- The loop stops at the first target up to which the weights reach the draw. -/
theorem chooseIndex_eq_iff (hr : r ≤ (shares targets).sum) (hi : i < targets.length) :
    chooseIndex r targets = i ↔
      (i = 0 ∨ weightBefore i (shares targets) < r) ∧
        r ≤ weightBefore (i + 1) (shares targets) := by
  induction targets generalizing r i with
  | nil => exact absurd hi (Nat.not_lt_zero i)
  | cons t rest ih =>
    rcases rest with - | ⟨u, rest⟩
    · obtain rfl : i = 0 := Nat.lt_one_iff.1 hi
      exact iff_of_true rfl ⟨.inl rfl, hr⟩
    have hshares : shares (t :: u :: rest) = t.share :: shares (u :: rest) := rfl
    rw [hshares, List.sum_cons] at hr
    rw [hshares, weightBefore_cons]
    show (if r - t.share ≤ 0 then 0 else chooseIndex (r - t.share) (u :: rest) + 1) = i ↔ _
    rcases i with - | i
    · rw [show weightBefore 0 (shares (u :: rest)) = 0 from rfl, add_zero, and_iff_right (.inl rfl)]
      split_ifs with hstop
      · exact iff_of_true rfl (sub_nonpos.1 hstop)
      · exact iff_of_false id (mt sub_nonpos.2 hstop)
    · rw [weightBefore_cons, or_iff_right (Nat.succ_ne_zero i)]
      have hbefore := weightBefore_nonneg (shares_nonneg (u :: rest)) i
      split_ifs with hstop
      · exact iff_of_false id fun h ↦ by linarith [h.1]
      · rw [Nat.succ_inj, ih (by linarith) (Nat.lt_of_succ_lt_succ hi)]
        refine and_congr ⟨fun h ↦ ?_, fun h ↦ .inr (by linarith)⟩
          ⟨fun h ↦ by linarith, fun h ↦ by linarith⟩
        rcases h with rfl | h
        · rw [show weightBefore 0 (shares (u :: rest)) = 0 from rfl]
          linarith
        · linarith

/-- A target is picked by draws of the length of its weight. -/
theorem hasLength_chooseIndex (hi : i < targets.length) :
    HasLength {r | r ∈ Set.Ico 0 (shares targets).sum ∧ chooseIndex r targets = i}
      targets[i].share := by
  have hlength : i < (shares targets).length := by
    rw [shares, List.length_map]
    exact hi
  have hle := weightBefore_le (shares_nonneg targets) (i + 1)
  have hget : (shares targets)[i] = targets[i].share := List.getElem_map _
  rw [← hget]
  refine hasLength_of_bounds (shares_nonneg targets) hlength (fun r hlow hhigh ↦ ?_)
    (fun r hr hindex ↦ ?_)
  · exact (chooseIndex_eq_iff (by linarith) hi).2 ⟨.inr hlow, hhigh.le⟩
  · obtain ⟨hlow, hhigh⟩ := (chooseIndex_eq_iff hr.2.le hi).1 hindex
    refine ⟨?_, hhigh⟩
    rcases hlow with rfl | hlow
    · exact hr.1
    · exact hlow.le

/-- The draw picks a target of positive weight. -/
def PicksWeight (r : ℚ) (targets : List Target) : Prop :=
  ∃ t, targets[chooseIndex r targets]? = some t ∧ 0 < t.weight

/-- The first target has no weight. -/
def IdleFirst (targets : List Target) : Prop := ∃ t, targets.head? = some t ∧ t.weight ≤ 0

theorem picksWeight_iff (hr : r ∈ Set.Ico 0 (shares targets).sum) :
    PicksWeight r targets ↔ ¬(r = 0 ∧ IdleFirst targets) := by
  obtain ⟨hzero, htotal⟩ := hr
  have hne : targets ≠ [] := by
    rintro rfl
    exact absurd (hzero.trans_lt htotal) (lt_irrefl 0)
  have hlt := chooseIndex_lt (r := r) hne
  have hpicks : PicksWeight r targets ↔ 0 < targets[chooseIndex r targets].weight := by
    rw [PicksWeight, List.getElem?_eq_getElem hlt]
    exact ⟨fun ⟨t, ht, hpos⟩ ↦ Option.some.inj ht ▸ hpos, fun hpos ↦ ⟨_, rfl, hpos⟩⟩
  rw [hpicks]
  rcases hzero.eq_or_lt with rfl | hpos
  · -- the draw 0 picks the first target
    obtain ⟨t, rest, rfl⟩ := List.exists_cons_of_ne_nil hne
    have hfirst : chooseIndex 0 (t :: rest) = 0 :=
      (chooseIndex_eq_iff htotal.le (Nat.succ_pos _)).2
        ⟨.inl rfl, weightBefore_nonneg (shares_nonneg _) 1⟩
    have hidle : IdleFirst (t :: rest) ↔ t.weight ≤ 0 :=
      ⟨fun ⟨u, hu, hweight⟩ ↦ Option.some.inj hu ▸ hweight, fun hweight ↦ ⟨t, rfl, hweight⟩⟩
    rw [hidle, and_iff_right rfl, not_le]
    simp only [hfirst, List.getElem_cons_zero]
  · refine iff_of_true (Target.share_pos_iff.1 ?_) fun h ↦ hpos.ne' h.1
    obtain ⟨hlow, hhigh⟩ := (chooseIndex_eq_iff htotal.le hlt).1 rfl
    have hlength : chooseIndex r targets < (shares targets).length := by
      rw [shares, List.length_map]
      exact hlt
    have hget : (shares targets)[chooseIndex r targets] = targets[chooseIndex r targets].share :=
      List.getElem_map _
    rw [weightBefore_succ hlength, hget] at hhigh
    have hbefore : weightBefore (chooseIndex r targets) (shares targets) < r := by
      rcases hlow with hindex | hlow
      · rw [hindex]
        exact hpos
      · exact hlow
    linarith

/-- No round is drawn 0 while the first of the targets left has no weight and another has some. -/
def NeverDrawsIdle (draw : ℕ → ℚ) : (n : ℕ) → List Target → Prop
  | 0, _ => True
  | n + 1, remaining =>
    ¬(draw (n + 1) = 0 ∧ IdleFirst remaining ∧ ∃ t ∈ remaining, 0 < t.weight) ∧
      NeverDrawsIdle draw n (remaining.eraseIdx (roundIndex (draw (n + 1)) remaining))

/-- Targets of positive weight come before the others. -/
def WeightFirst (ordered : List Target) : Prop :=
  ordered.Pairwise fun t u ↦ 0 < u.weight → 0 < t.weight

theorem sum_share_pos (h : ∃ t ∈ targets, 0 < t.weight) : 0 < (shares targets).sum := by
  obtain ⟨t, ht, hweight⟩ := h
  have hle := List.single_le_sum (shares_nonneg targets) t.share (List.mem_map_of_mem ht)
  exact (Target.share_pos_iff.2 hweight).trans_le hle

/-- In a round, one of weight is picked while there is one, unless the draw is 0 and the first has
none. -/
theorem weight_of_round {draw : ℚ} (hdraw : draw ∈ Set.Ico 0 1)
    (ht : targets[roundIndex draw targets]? = some t) :
    ((∃ u ∈ targets, 0 < u.weight) → 0 < t.weight) ↔
      ¬(draw = 0 ∧ IdleFirst targets ∧ ∃ u ∈ targets, 0 < u.weight) := by
  by_cases hsome : ∃ u ∈ targets, 0 < u.weight
  · have htotal := sum_share_pos hsome
    have hr : draw * (shares targets).sum ∈ Set.Ico 0 (shares targets).sum :=
      ⟨mul_nonneg hdraw.1 htotal.le, mul_lt_of_lt_one_left htotal hdraw.2⟩
    rw [roundIndex, ← shares, if_neg (not_le.2 htotal)] at ht
    have hpicks : PicksWeight (draw * (shares targets).sum) targets ↔ 0 < t.weight := by
      rw [PicksWeight, ht]
      constructor
      · rintro ⟨u, hu, hpos⟩
        rwa [Option.some.inj hu]
      · exact fun hpos ↦ ⟨t, rfl, hpos⟩
    rw [forall_prop_of_true hsome, ← hpicks, picksWeight_iff hr, and_iff_left hsome,
      mul_eq_zero_iff_right htotal.ne']
  · exact iff_of_true (fun h ↦ absurd h hsome) fun h ↦ hsome h.2.2

/-- The whole order. -/
theorem weightFirst_loadBalanceOrder_iff {draw : ℕ → ℚ} (hdraw : ∀ n, draw n ∈ Set.Ico 0 1)
    (n : ℕ) {remaining : List Target} (hn : remaining.length = n) :
    WeightFirst (loadBalanceOrder draw n remaining) ↔ NeverDrawsIdle draw n remaining := by
  induction n generalizing remaining with
  | zero => exact iff_of_true List.Pairwise.nil trivial
  | succ n ih =>
    have hlt := roundIndex_lt (draw (n + 1)) (List.ne_nil_of_length_eq_add_one hn)
    have hrest : (remaining.eraseIdx (roundIndex (draw (n + 1)) remaining)).length = n := by
      rw [List.length_eraseIdx_of_lt hlt, hn, Nat.add_sub_cancel]
    have ht := List.getElem?_eq_getElem hlt
    rw [NeverDrawsIdle, ← weight_of_round (hdraw (n + 1)) ht, ← ih hrest, WeightFirst,
      loadBalanceOrder, ht]
    simp only
    rw [List.pairwise_cons]
    refine and_congr_left fun _ ↦ ?_
    have hmem (u : Target) : u ∈ loadBalanceOrder draw n
        (remaining.eraseIdx (roundIndex (draw (n + 1)) remaining)) ↔
          u ∈ remaining.eraseIdx (roundIndex (draw (n + 1)) remaining) :=
      (loadBalanceOrder_perm hrest).mem_iff
    constructor
    · rintro h ⟨u, hu, hweight⟩
      rcases List.mem_cons.1 ((List.getElem_cons_eraseIdx_perm hlt).mem_iff.2 hu) with rfl | hu
      · exact hweight
      · exact h u ((hmem u).2 hu) hweight
    · exact fun h u hu hweight ↦ h ⟨u, List.mem_of_mem_eraseIdx ((hmem u).1 hu), hweight⟩

end LoadBalance

/-! ### A/B tests -/

/-- The index of the variant the loop over the variants returns. -/
def variantIndex (r cumulative : ℚ) : List ABTestVariant → ℕ
  | [] => 0
  | v :: rest =>
    if r < cumulative + v.share then 0 else variantIndex r (cumulative + v.share) rest + 1

/-- The weights of the variants, as they are counted. -/
def variantShares (variants : List ABTestVariant) : List ℚ := variants.map (·.share)

section Variants

variable {variants : List ABTestVariant} {i : ℕ} {r cumulative : ℚ}

theorem pickVariant_eq (r cumulative : ℚ) (variants : List ABTestVariant) :
    pickVariant r cumulative variants = variants[variantIndex r cumulative variants]? := by
  induction variants generalizing cumulative with
  | nil => rfl
  | cons v rest ih =>
    rw [pickVariant, variantIndex, ih]
    split_ifs
    · rfl
    · rfl

theorem variantShares_nonneg (variants : List ABTestVariant) :
    ∀ w ∈ variantShares variants, 0 ≤ w :=
  List.forall_mem_map.2 fun v _ ↦ v.share_pos.le

/-- The loop stops at the first variant up to which the weights exceed the draw. -/
theorem variantIndex_eq_iff (hlow : cumulative ≤ r)
    (hr : r < cumulative + (variantShares variants).sum) (hi : i < variants.length) :
    variantIndex r cumulative variants = i ↔
      cumulative + weightBefore i (variantShares variants) ≤ r ∧
        r < cumulative + weightBefore (i + 1) (variantShares variants) := by
  induction variants generalizing cumulative i with
  | nil => exact absurd hi (Nat.not_lt_zero i)
  | cons v rest ih =>
    have hshares : variantShares (v :: rest) = v.share :: variantShares rest := rfl
    rw [hshares, List.sum_cons] at hr
    rw [variantIndex, hshares, weightBefore_cons, ← add_assoc]
    rcases i with - | i
    · rw [show weightBefore 0 (v.share :: variantShares rest) = 0 from rfl,
        show weightBefore 0 (variantShares rest) = 0 from rfl, add_zero, add_zero,
        and_iff_right hlow]
      split_ifs with hstop
      · exact iff_of_true rfl hstop
      · exact iff_of_false id hstop
    · rw [weightBefore_cons, ← add_assoc]
      have hbefore := weightBefore_nonneg (variantShares_nonneg rest) i
      split_ifs with hstop
      · exact iff_of_false id fun h ↦ by linarith [h.1]
      · rw [Nat.succ_inj]
        exact ih (not_lt.1 hstop) (by linarith) (Nat.lt_of_succ_lt_succ hi)

/-- A variant is picked by draws of the length of its weight. -/
theorem hasLength_variantIndex (hi : i < variants.length) :
    HasLength {r | r ∈ Set.Ico 0 (variantShares variants).sum ∧ variantIndex r 0 variants = i}
      variants[i].share := by
  have hlength : i < (variantShares variants).length := by
    rw [variantShares, List.length_map]
    exact hi
  have hle := weightBefore_le (variantShares_nonneg variants) (i + 1)
  have hnonneg := weightBefore_nonneg (variantShares_nonneg variants) i
  have hget : (variantShares variants)[i] = variants[i].share := List.getElem_map _
  rw [← hget]
  refine hasLength_of_bounds (variantShares_nonneg variants) hlength (fun r hlow hhigh ↦ ?_)
    (fun r hr hindex ↦ ?_)
  · refine (variantIndex_eq_iff (by linarith) (by linarith) hi).2 ?_
    rw [zero_add, zero_add]
    exact ⟨hlow.le, hhigh⟩
  · have hbounds := (variantIndex_eq_iff hr.1 (by rw [zero_add]; exact hr.2) hi).1 hindex
    rw [zero_add, zero_add] at hbounds
    exact ⟨hbounds.1, hbounds.2.le⟩

end Variants

/-- Weighted choice. Each target, and each variant, is picked by draws of the length of its weight.
In a round of load balancing a draw picks a target of positive weight unless it is 0 and the first
target has none, and the order puts the targets of positive weight first exactly where no round is
drawn so. -/
theorem weighted_choice_iff (targets : List Target) (variants : List ABTestVariant) :
    (∀ (i : ℕ) (_ : i < targets.length),
      HasLength {r | r ∈ Set.Ico 0 (shares targets).sum ∧ chooseIndex r targets = i}
        (max targets[i].weight 0)) ∧
    (∀ r ∈ Set.Ico 0 (shares targets).sum,
      (PicksWeight r targets ↔ ¬(r = 0 ∧ IdleFirst targets))) ∧
    (∀ draw : ℕ → ℚ, (∀ n, draw n ∈ Set.Ico 0 1) →
      (WeightFirst (loadBalanceOrder draw targets.length targets) ↔
        NeverDrawsIdle draw targets.length targets)) ∧
    ∀ (i : ℕ) (_ : i < variants.length),
      (∀ r, pickVariant r 0 variants = variants[variantIndex r 0 variants]?) ∧
      HasLength {r | r ∈ Set.Ico 0 (variantShares variants).sum ∧ variantIndex r 0 variants = i}
        (if variants[i].weight ≤ 0 then 1 else variants[i].weight) := by
  refine ⟨fun i hi ↦ ?_, fun r hr ↦ ?_, fun draw hdraw ↦ ?_, fun i hi ↦ ⟨fun r ↦ ?_, ?_⟩⟩
  · exact hasLength_chooseIndex hi
  · exact picksWeight_iff hr
  · exact weightFirst_loadBalanceOrder_iff hdraw _ rfl
  · exact pickVariant_eq r 0 variants
  · exact hasLength_variantIndex hi

/-- A drained target in front of one that serves. -/
def drainedFirst : List Target :=
  [{ Target.ofProvider "openai" with weight := 0 }, { Target.ofProvider "gemini" with weight := 1 }]

theorem drained_picked : (0 : ℚ) ∈ Set.Ico 0 (shares drainedFirst).sum ∧
    ¬PicksWeight 0 drainedFirst ∧
    ¬WeightFirst (loadBalanceOrder (fun _ ↦ 0) drainedFirst.length drainedFirst) := by
  refine ⟨by decide +kernel, ?_, ?_⟩
  · rintro ⟨t, ht, hweight⟩
    have hindex : chooseIndex 0 drainedFirst = 0 := by decide +kernel
    rw [hindex] at ht
    obtain rfl := Option.some.inj ht
    exact absurd hweight (by decide +kernel)
  · have horder : loadBalanceOrder (fun _ ↦ 0) drainedFirst.length drainedFirst = drainedFirst := by
      decide +kernel
    rw [horder, WeightFirst, drainedFirst, List.pairwise_pair]
    decide +kernel

end Himadri
