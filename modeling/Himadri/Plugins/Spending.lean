import Himadri.Plugins.BudgetRuns

/-!
# What a budget lets through

Two bounds on the account of one principal whose entry is kept. A limit is passed by no more than
the cost of the requests that may be in flight together (`spend_within`): while they are, their cost
is held against the limit (`Covered`). And the amount stored is the sum of the costs, each rounded
to whole micro-dollars before it is added (`micro_eq`), so it drifts from the exact sum unless the
parts that are rounded off balance (`drift_iff`).
-/

namespace Himadri

namespace BudgetRun

open BudgetPlugin

/-! ### Overshoot -/

/-- What has been spent and what `p` requests in flight may still cost, at `c` each, stays below the
limit and `k` requests. -/
def Covered (spent : ℚ) (p k : ℕ) (c limit : ℚ) : Prop := spent + p * c < limit + k * c

section Covered

variable {spent spent' c limit : ℚ} {p p' k : ℕ}

theorem Covered.enter (hspent : spent < limit) (hp : p < k) (hc : 0 ≤ c) :
    Covered spent (p + 1) k c limit := by
  have hle : ((p + 1 : ℕ) : ℚ) * c ≤ k * c :=
    mul_le_mul_of_nonneg_right (by exact_mod_cast hp) hc
  exact add_lt_add_of_lt_of_le hspent hle

theorem Covered.charge (h : Covered spent (p + 1) k c limit) (hspent : spent' ≤ spent + c) :
    Covered spent' p k c limit := by
  rw [Covered] at h ⊢
  push_cast at h
  linarith

theorem Covered.mono (h : Covered spent p k c limit) (hp : p' ≤ p) (hc : 0 ≤ c) :
    Covered spent p' k c limit := by
  have hle : (p' : ℚ) * c ≤ p * c := mul_le_mul_of_nonneg_right (by exact_mod_cast hp) hc
  rw [Covered] at h ⊢
  linarith

theorem Covered.lt (h : Covered spent p k c limit) (hc : 0 ≤ c) : spent < limit + k * c := by
  have hnonneg : 0 ≤ (p : ℚ) * c := mul_nonneg (Nat.cast_nonneg p) hc
  rw [Covered] at h
  linarith

end Covered

variable {s s' : BudgetRun} {key : String}

variable (s key) in
/-- The costs that were added for the principal. -/
def recorded : List ℚ := (s.costsOf key).filter (0 < ·)

variable (s key) in
/-- The principal has the limit, at most `k` of its requests are in flight, each costs at most
`cost`, and its entry is kept. -/
def Within (limit cost : ℚ) (k : ℕ) (op : BudgetOp) : Prop :=
  s.Kept key op ∧
    match op with
    | .before plugin ctx _ => spendKey ctx = some key →
        plugin.limitFor ctx = limit ∧ (s.store.get key < limit → s.pending key < k)
    | .after j response _ => ∀ e ∈ s.chargeOf j response, e.1 = key → e.2 ≤ cost
    | _ => True

instance (limit cost : ℚ) (k : ℕ) : DecidablePred (s.Within key limit cost k)
  | .before plugin ctx _ => inferInstanceAs (Decidable (_ ∧ (spendKey ctx = some key →
      plugin.limitFor ctx = limit ∧ (s.store.get key < limit → s.pending key < k))))
  | .after j response _ => inferInstanceAs (Decidable (_ ∧
      ∀ e ∈ s.chargeOf j response, e.1 = key → e.2 ≤ cost))
  | .abandon _ => inferInstanceAs (Decidable (_ ∧ True))
  | .resetKey _ => inferInstanceAs (Decidable (_ ∧ True))
  | .resetAll => inferInstanceAs (Decidable (_ ∧ True))

variable (key) in
/-- The account of a principal whose requests keep within the bounds, in micro-dollars. -/
structure Account (limit cost : ℚ) (k : ℕ) (s : BudgetRun) : Prop where
  stored : Covered (s.store.micro key) (s.pending key) k (cost * 1000000 + 1 / 2) (limit * 1000000)
  few : (s.store.micro key : ℚ) ≤ (s.recorded key).length * (cost * 1000000 + 1 / 2)
  /-- Rounding hides at most half a micro-dollar of each cost. -/
  tracked : s.store.micro key < UInt64.size - 1 →
    (s.recorded key).sum * 1000000 - (s.recorded key).length / 2 ≤ s.store.micro key
  spent : limit ≤ microToUsd (UInt64.size - 1) →
    Covered ((s.recorded key).sum * 1000000 - (s.recorded key).length / 2) (s.pending key) k
      (cost * 1000000) (limit * 1000000)

section Account

variable {limit cost : ℚ} {k : ℕ}

theorem account_new (hlimit : 0 < limit) (hcost : 0 ≤ cost) (n : ℕ) :
    Account key limit cost k (new n) where
  stored := by
    have hk : 0 ≤ (k : ℚ) * (cost * 1000000 + 1 / 2) := by positivity
    simp only [Covered, new, SpendStore.micro_new, pending, List.countP_nil, Nat.cast_zero]
    linarith
  few := by simp [new, recorded, costsOf]
  tracked _ := by simp [new, recorded, costsOf]
  spent _ := by
    have hk : 0 ≤ (k : ℚ) * (cost * 1000000) := by positivity
    simp only [Covered, new, recorded, costsOf, pending, List.filter_nil, List.map_nil,
      List.sum_nil, List.length_nil, List.countP_nil, Nat.cast_zero]
    linarith

theorem recorded_of_pos {c : ℚ} (hcosts : s'.costsOf key = c :: s.costsOf key) (hc : 0 < c) :
    s'.recorded key = c :: s.recorded key := by
  rw [recorded, hcosts, List.filter_cons_of_pos (by simpa using hc), recorded]

theorem recorded_of_nonpos {c : ℚ} (hcosts : s'.costsOf key = c :: s.costsOf key) (hc : ¬0 < c) :
    s'.recorded key = s.recorded key := by
  rw [recorded, hcosts, List.filter_cons_of_neg (by simpa using hc), recorded]

/-- A step that leaves the amounts as they are and admits nothing. -/
theorem Account.idle (h : Account key limit cost k s) (hcost : 0 ≤ cost)
    (hmicro : s'.store.micro key = s.store.micro key) (hrecorded : s'.recorded key = s.recorded key)
    (hpending : s'.pending key ≤ s.pending key) : Account key limit cost k s' where
  stored := by
    rw [hmicro]
    exact h.stored.mono hpending (by positivity)
  few := by
    rw [hmicro, hrecorded]
    exact h.few
  tracked := by
    rw [hmicro, hrecorded]
    exact h.tracked
  spent hfits := by
    rw [hrecorded]
    exact (h.spent hfits).mono hpending (by positivity)

theorem Account.enter (h : Account key limit cost k s) (hcost : 0 ≤ cost)
    (hroom : s.store.get key < limit) (hk : s.pending key < k)
    (hmicro : s'.store.micro key = s.store.micro key) (hrecorded : s'.recorded key = s.recorded key)
    (hpending : s'.pending key = s.pending key + 1) : Account key limit cost k s' where
  stored := by
    rw [SpendStore.get_eq, microToUsd_lt_iff] at hroom
    rw [hmicro, hpending]
    exact .enter hroom hk (by positivity)
  few := by
    rw [hmicro, hrecorded]
    exact h.few
  tracked := by
    rw [hmicro, hrecorded]
    exact h.tracked
  spent hfits := by
    have hlt : s.store.micro key < UInt64.size - 1 := by
      have hlt' := hroom.trans_le hfits
      rw [SpendStore.get_eq, microToUsd, microToUsd, div_lt_div_iff_of_pos_right (by norm_num)]
        at hlt'
      exact_mod_cast hlt'
    rw [SpendStore.get_eq, microToUsd_lt_iff] at hroom
    rw [hrecorded, hpending]
    exact .enter ((h.tracked hlt).trans_lt hroom) hk (by positivity)

theorem Account.charge (h : Account key limit cost k s) {c : ℚ} (hpos : 0 < c) (hle : c ≤ cost)
    (hmicro : s'.store.micro key = min (s.store.micro key + usdToMicro c) (UInt64.size - 1))
    (hrecorded : s'.recorded key = c :: s.recorded key)
    (hpending : s'.pending key + 1 = s.pending key) : Account key limit cost k s' := by
  have hcharged := usdToMicro_le hpos.le
  have hmicro' : (s'.store.micro key : ℚ) ≤ s.store.micro key + usdToMicro c := by
    rw [hmicro]
    exact_mod_cast Nat.min_le_left ..
  refine ⟨?_, ?_, fun hmax ↦ ?_, fun hfits ↦ ?_⟩
  · have hstored := h.stored
    rw [← hpending] at hstored
    exact hstored.charge (by linarith)
  · have hfew := h.few
    rw [hrecorded, List.length_cons]
    push_cast
    linarith
  · have hunder : s.store.micro key + usdToMicro c < UInt64.size - 1 := by
      rw [hmicro] at hmax
      exact (min_lt_iff.1 hmax).resolve_right (lt_irrefl _)
    have htracked := h.tracked ((Nat.le_add_right ..).trans_lt hunder)
    have hshort := le_usdToMicro hpos.le ((Nat.le_add_left ..).trans_lt hunder)
    rw [hmicro, min_eq_left hunder.le, hrecorded, List.sum_cons, List.length_cons]
    push_cast
    linarith
  · have hspent := h.spent hfits
    rw [← hpending] at hspent
    rw [hrecorded, List.sum_cons, List.length_cons]
    refine hspent.charge ?_
    push_cast
    linarith

theorem account_invariant (hlimit : 0 < limit) (hcost : 0 ≤ cost) :
    (runs.guard fun s ↦ s.Within key limit cost k).Invariant (Account key limit cost k) where
  init s hs := by
    obtain ⟨n, rfl⟩ := hs
    exact account_new hlimit hcost n
  step s op s' h hstep := by
    obtain ⟨hstep, hkept, hwithin⟩ := hstep
    rcases step_cases hstep hkept.1 hkept.2 with ⟨hmicro, hcosts, hpending⟩ |
      ⟨plugin, ctx, env, rfl, hkey, hroom, hmicro, hcosts, hpending⟩ |
      ⟨j, response, env, c, rfl, hcharge, hmicro, hcosts, hpending⟩
    · exact h.idle hcost hmicro (by rw [recorded, hcosts, recorded]) hpending
    · obtain ⟨rfl, hk⟩ := hwithin hkey
      have hspent := hroom.resolve_left (not_le.2 hlimit)
      exact h.enter hcost hspent (hk hspent) hmicro (by rw [recorded, hcosts, recorded]) hpending
    · split at hmicro
      · next hpos =>
        exact h.charge hpos (hwithin _ hcharge rfl) hmicro (recorded_of_pos hcosts hpos) hpending
      · next hfree =>
        exact h.idle hcost hmicro (recorded_of_nonpos hcosts hfree) (Nat.le.intro hpending)

/-- **What a principal spends stays below its limit and the cost of the requests that may be in
flight together**, up to rounding; and once the limit is reached nothing more is admitted. -/
theorem spend_within (hlimit : 0 < limit) (hcost : 0 ≤ cost)
    (hs : (runs.guard fun s ↦ s.Within key limit cost k).Reachable s) :
    s.store.get key < limit + k * cost + min k (s.recorded key).length / 2000000 ∧
      (limit ≤ microToUsd (UInt64.size - 1) →
        (s.recorded key).sum < limit + k * cost + (s.recorded key).length / 2000000) ∧
      (limit ≤ s.store.get key → ∀ s', (runs.guard fun s ↦ s.Within key limit cost k).Leads s s' →
        Refuses s'.store key limit) := by
  have h := (account_invariant hlimit hcost).of_reachable hs
  refine ⟨?_, fun hfits ↦ ?_, fun hspent s' hs' ↦ ?_⟩
  · have hstored := h.stored.lt (by positivity)
    have hfew := h.few
    rw [SpendStore.get_eq, microToUsd_lt_iff]
    rcases le_total k (s.recorded key).length with hk | hk
    · rw [min_eq_left hk]
      linarith
    · have hk' : ((s.recorded key).length : ℚ) ≤ k := by exact_mod_cast hk
      have hmul : (s.recorded key).length * cost ≤ k * cost := mul_le_mul_of_nonneg_right hk' hcost
      rw [min_eq_right hk]
      linarith
  · have hspent := (h.spent hfits).lt (by positivity)
    linarith
  · have hmono := micro_le_of_leads (hs'.guard_mono fun _ _ hwithin ↦ hwithin.1)
    rw [refuses_iff hlimit]
    rw [SpendStore.get_eq, le_microToUsd_iff] at hspent ⊢
    exact hspent.trans (by exact_mod_cast hmono)

/-- Two requests in flight together, each of a dollar against a limit of a dollar. -/
def twoTogether : List BudgetOp :=
  [.before oneDollar (requestOf "key-1") ⟨0, ""⟩, .before oneDollar (requestOf "key-1") ⟨0, ""⟩,
    .after 0 (responseTo 1000000) ⟨0, ""⟩, .after 0 (responseTo 1000000) ⟨0, ""⟩]

theorem twoTogether_within : ∃ s,
    (runs.guard fun s ↦ s.Within "key-1" 1 1 2).Reachable s ∧
      s.store.get "key-1" < 1 + (2 : ℕ) * 1 + min 2 (s.recorded "key-1").length / 2000000 ∧
      (1 ≤ microToUsd (UInt64.size - 1) →
        (s.recorded "key-1").sum < 1 + (2 : ℕ) * 1 + (s.recorded "key-1").length / 2000000) ∧
      (1 ≤ s.store.get "key-1" → ∀ s', (runs.guard fun s ↦ s.Within "key-1" 1 1 2).Leads s s' →
        Refuses s'.store "key-1" 1) := by
  have hrun : (twoTogether.foldlM
      (fun (s : BudgetRun) op ↦ if s.Within "key-1" 1 1 2 op then step? s op else none)
      (new 0)).isSome = true := by
    decide +kernel
  obtain ⟨s, hs⟩ := Option.isSome_iff_exists.1 hrun
  have hreachable : (runs.guard fun s ↦ s.Within "key-1" 1 1 2).Reachable s :=
    TransitionSystem.reachable_guard_of_foldlM ⟨0, rfl⟩ twoTogether hs
  exact ⟨s, hreachable, spend_within one_pos zero_le_one hreachable⟩

end Account

/-! ### Drift -/

/-- What rounding to whole micro-dollars takes off a cost, or adds where it is negative; in
micro-dollars. -/
def microRemainder (usd : ℚ) : ℚ :=
  let micro := usd * 1000000
  if micro < 0 then micro
  else if 2 * Int.fract micro < 1 then Int.fract micro else Int.fract micro - 1

/-- What is rounded off the costs balances to within a micro-dollar. A total that does not fit an
entry ends at its maximum. -/
def Balances (costs : List ℚ) : Prop :=
  if (costs.map nearestMicro).sum < UInt64.size then |(costs.map microRemainder).sum| ≤ 1
  else |costs.sum * 1000000 - (UInt64.size - 1 : ℕ)| ≤ 1

theorem nearestMicro_add_microRemainder (usd : ℚ) :
    (nearestMicro usd : ℚ) + microRemainder usd = usd * 1000000 := by
  rw [microRemainder]
  rcases lt_or_ge (usd * 1000000) 0 with hneg | hnonneg
  · rw [if_pos hneg, nearestMicro_eq_zero (by linarith), Nat.cast_zero, zero_add]
  · rw [if_neg hnonneg.not_gt, coe_nearestMicro (by linarith), round]
    split
    · exact Int.floor_add_fract _
    · next hhalf =>
      have hfract : Int.fract (usd * 1000000) ≠ 0 := by
        intro hzero
        rw [hzero] at hhalf
        norm_num at hhalf
      rw [Int.ceil_eq_add_one_sub_fract hfract]
      linarith

theorem sum_nearestMicro_add (costs : List ℚ) :
    ((costs.map nearestMicro).sum : ℚ) + (costs.map microRemainder).sum = costs.sum * 1000000 := by
  induction costs with
  | nil => simp
  | cons usd costs ih =>
    have husd := nearestMicro_add_microRemainder usd
    simp only [List.map_cons, List.sum_cons]
    push_cast at ih ⊢
    linarith

/-- The amount stored is the sum of the rounded costs, as far as an entry can hold it. -/
theorem micro_eq (hs : (runs.guard fun s ↦ s.Kept key).Reachable s) :
    s.store.micro key = min ((s.costsOf key).map nearestMicro).sum (UInt64.size - 1) := by
  have hinvariant : (runs.guard fun s ↦ s.Kept key).Invariant fun s ↦
      s.store.micro key = min ((s.costsOf key).map nearestMicro).sum (UInt64.size - 1) := by
    refine ⟨?_, fun s op s' h hstep ↦ ?_⟩
    · rintro s ⟨n, rfl⟩
      rfl
    · obtain ⟨hstep, hkept⟩ := hstep
      rcases step_cases hstep hkept.1 hkept.2 with ⟨hmicro, hcosts, -⟩ |
        ⟨-, -, -, -, -, -, hmicro, hcosts, -⟩ | ⟨-, -, -, cost, -, -, hmicro, hcosts, -⟩
      · rw [hmicro, hcosts, h]
      · rw [hmicro, hcosts, h]
      · rw [hmicro, hcosts, h, List.map_cons, List.sum_cons, usdToMicro]
        split
        · omega
        · next hfree => rw [nearestMicro_eq_zero (not_lt.1 hfree), Nat.zero_add]
  exact hinvariant.of_reachable hs

/-- **The spend stored is within a micro-dollar of the exact cost exactly when what is rounded off
balances.** -/
theorem drift_iff (hs : (runs.guard fun s ↦ s.Kept key).Reachable s) :
    |(s.store.micro key : ℚ) - (s.costsOf key).sum * 1000000| ≤ 1 ↔ Balances (s.costsOf key) := by
  rw [micro_eq hs, Balances, ← sum_nearestMicro_add]
  split
  · next hfits =>
    rw [min_eq_left (Nat.le_sub_one_of_lt hfits), sub_add_cancel_left, abs_neg]
  · next hover =>
    rw [min_eq_right ((Nat.sub_le ..).trans (not_lt.1 hover)), abs_sub_comm]

/-- A dollar is a whole number of micro-dollars. -/
theorem dollar_balances : ∃ s, (runs.guard fun s ↦ s.Kept "key-1").Reachable s ∧
    (|(s.store.micro "key-1" : ℚ) - (s.costsOf "key-1").sum * 1000000| ≤ 1 ↔
      Balances (s.costsOf "key-1")) := by
  have hrun : ((spendsDollar "key-1" "" 0).foldlM
      (fun (s : BudgetRun) op ↦ if s.Kept "key-1" op then step? s op else none)
      (new 0)).isSome = true := by
    decide +kernel
  obtain ⟨s, hs⟩ := Option.isSome_iff_exists.1 hrun
  have hreachable : (runs.guard fun s ↦ s.Kept "key-1").Reachable s :=
    TransitionSystem.reachable_guard_of_foldlM ⟨0, rfl⟩ _ hs
  exact ⟨s, hreachable, drift_iff hreachable⟩

/-- A request of one token, which costs four tenths of a micro-dollar. -/
def spendsLittle : List BudgetOp :=
  [.before fortyCents (requestOf "key-1") ⟨0, ""⟩, .after 0 (responseTo 1) ⟨0, ""⟩]

/-- Three of them are stored as nothing. -/
theorem littles_are_free : ¬∀ key s, (runs.guard fun s ↦ s.Kept key).Reachable s →
    |(s.store.micro key : ℚ) - (s.costsOf key).sum * 1000000| ≤ 1 := by
  intro h
  have hrun : ((spendsLittle ++ spendsLittle ++ spendsLittle).foldlM
      (fun (s : BudgetRun) op ↦ if s.Kept "key-1" op then step? s op else none) (new 0)).any
        (fun s ↦ s.store.micro "key-1" = 0 && (s.costsOf "key-1").sum * 1000000 = 6 / 5) =
      true := by
    decide +kernel
  obtain ⟨s, hs, hspent⟩ := (Option.any_eq_true ..).1 hrun
  rw [Bool.and_eq_true, decide_eq_true_eq, decide_eq_true_eq] at hspent
  obtain ⟨hstored, hcost⟩ := hspent
  have hdrift := h "key-1" s (TransitionSystem.reachable_guard_of_foldlM ⟨0, rfl⟩ _ hs)
  rw [hstored, hcost] at hdrift
  norm_num at hdrift

end BudgetRun

end Himadri
