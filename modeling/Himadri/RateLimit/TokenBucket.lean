import Himadri.RateLimit.Limiter
import Himadri.Transition.System
import Himadri.Transition.Tasks
import Mathlib.Algebra.Order.BigOperators.Group.Multiset

/-!
# The token bucket

`TokenBucket` of `himadri-ratelimit`. A call of `allow_n` is a refill and then a consumption, and
the refill is four separate steps: read the clock, load `last_refill`, exchange it for the time that
was read, credit the tokens. `allowN` is a call nobody interrupts; `BucketRun` is one bucket under
any number of calls, each somewhere between two of its steps.

What keeps the calls from crediting an interval twice is that `last_refill` only moves forward and
that the winner of the exchange is credited for exactly the stretch it moved it over. `Bounded` says
so of the tokens, the grants and the credits that are still to be written.
-/

namespace Himadri

namespace TokenBucket

/-- `TokenBucket::new`. -/
def new (rate capacity now : ℕ) : TokenBucket where
  tokens := capacity
  lastRefill := now
  rate
  capacity

/-- The whole tokens due for the time from `last` to `now`; the product saturates. -/
def credit (rate last now : ℕ) : ℕ := min ((now - last) * rate) (UInt64.size - 1) / 1000000

variable (b : TokenBucket)

/-- The update of `tokens` by the winner of the exchange. -/
def addTokens (credit : ℕ) : TokenBucket :=
  { b with tokens := min (min (b.tokens + credit) (UInt64.size - 1)) b.capacity }

/-- The update of `tokens` by a consumer: `checked_sub`. -/
def takeTokens (n : ℕ) : Option TokenBucket :=
  if n ≤ b.tokens then some { b with tokens := b.tokens - n } else none

/-- `TokenBucket::refill`, uninterrupted. -/
def refill (now : ℕ) : TokenBucket :=
  if credit b.rate b.lastRefill now = 0 then b
  else { b with lastRefill := now }.addTokens (credit b.rate b.lastRefill now)

/-- `TokenBucket::allow_n`, uninterrupted. -/
def allowN (now n : ℕ) : TokenBucket × Bool :=
  match (b.refill now).takeTokens n with
  | some b' => (b', true)
  | none => (b.refill now, false)

variable {b}

/-- What is credited is paid for by the time that has passed. -/
theorem credit_mul_le (rate last now : ℕ) :
    credit rate last now * 1000000 ≤ (now - last) * rate :=
  (Nat.div_mul_le_self _ _).trans (min_le_left _ _)

/-- Nothing is due where the clock that was read is behind. -/
theorem lt_of_credit_ne_zero {rate last now : ℕ} (h : credit rate last now ≠ 0) : last < now := by
  by_contra hle
  have hzero : now - last = 0 := by omega
  exact h (by simp [credit, hzero])

@[simp] theorem addTokens_lastRefill (credit : ℕ) :
    (b.addTokens credit).lastRefill = b.lastRefill := rfl

@[simp] theorem addTokens_rate (credit : ℕ) : (b.addTokens credit).rate = b.rate := rfl

@[simp] theorem addTokens_capacity (credit : ℕ) : (b.addTokens credit).capacity = b.capacity := rfl

theorem addTokens_tokens_le_capacity (credit : ℕ) : (b.addTokens credit).tokens ≤ b.capacity :=
  min_le_right _ _

theorem addTokens_tokens_le (credit : ℕ) : (b.addTokens credit).tokens ≤ b.tokens + credit :=
  (min_le_left _ _).trans (min_le_left _ _)

theorem takeTokens_eq_some {n : ℕ} {b' : TokenBucket} (h : b.takeTokens n = some b') :
    b.tokens = b'.tokens + n ∧ b' = { b with tokens := b.tokens - n } := by
  obtain ⟨hn, heq⟩ := Option.ite_none_right_eq_some.1 h
  obtain rfl := Option.some.inj heq
  refine ⟨?_, rfl⟩
  show b.tokens = b.tokens - n + n
  omega

end TokenBucket

/-! ### Interleaved calls -/

/-- Where a call of `allow_n` stands. -/
inductive AllowPoint
  | entered
  /-- The clock was read. -/
  | clocked (now : ℕ)
  /-- `last_refill` was loaded. -/
  | loaded (now last : ℕ)
  /-- The exchange of `last_refill` was won and the credit is still to be written. -/
  | won (credit : ℕ)
  /-- About to consume. -/
  | refilled
  | returned (allowed : Bool)
  deriving DecidableEq

namespace AllowPoint

/-- The credit a call has won and not yet written. -/
def pending : AllowPoint → Option ℕ
  | .won credit => some credit
  | _ => none

/-- The time a call has read and may still write to `last_refill`. -/
def time : AllowPoint → Option ℕ
  | .clocked now => some now
  | .loaded now _ => some now
  | _ => none

end AllowPoint

/-- One bucket, when it was built, the latest time that was read from the clock, its calls, each
with the tokens it asks for, and the tokens granted so far. -/
structure BucketRun where
  bucket : TokenBucket
  created : ℕ
  clock : ℕ
  calls : List (ℕ × AllowPoint)
  granted : ℕ
  deriving DecidableEq

/-- One step, of call `j` where it names one. -/
inductive BucketOp
  | call (n : ℕ)
  | readClock (j now : ℕ)
  | loadLast (j : ℕ)
  | exchangeLast (j : ℕ)
  | addTokens (j : ℕ)
  | takeTokens (j : ℕ)

namespace BucketRun

/-- A bucket nobody has called yet. -/
def start (rate capacity now : ℕ) : BucketRun := ⟨.new rate capacity now, now, now, [], 0⟩

section Step

variable (s : BucketRun)

/-- Call `j`, which asks for `n`, moves to `point`. -/
def move (j n : ℕ) (point : AllowPoint) : BucketRun := { s with calls := s.calls.set j (n, point) }

@[simp] theorem move_bucket (j n : ℕ) (point : AllowPoint) : (s.move j n point).bucket = s.bucket :=
  rfl

@[simp] theorem move_created (j n : ℕ) (point : AllowPoint) :
    (s.move j n point).created = s.created := rfl

/-- One step of `allow_n`. A call that finds nothing due, or that loses the exchange, goes on to
consume. -/
def step? : BucketOp → Option BucketRun
  | .call n => some { s with calls := s.calls ++ [(n, .entered)] }
  | .readClock j now =>
    match s.calls[j]? with
    | some (n, .entered) =>
      if s.clock ≤ now then some { s.move j n (.clocked now) with clock := now } else none
    | _ => none
  | .loadLast j =>
    match s.calls[j]? with
    | some (n, .clocked now) => some (s.move j n (.loaded now s.bucket.lastRefill))
    | _ => none
  | .exchangeLast j =>
    match s.calls[j]? with
    | some (n, .loaded now last) =>
      let credit := TokenBucket.credit s.bucket.rate last now
      if credit = 0 then some (s.move j n .refilled)
      else if s.bucket.lastRefill = last then
        some { s.move j n (.won credit) with bucket := { s.bucket with lastRefill := now } }
      else some (s.move j n .refilled)
    | _ => none
  | .addTokens j =>
    match s.calls[j]? with
    | some (n, .won credit) =>
      some { s.move j n .refilled with bucket := s.bucket.addTokens credit }
    | _ => none
  | .takeTokens j =>
    match s.calls[j]? with
    | some (n, .refilled) =>
      match s.bucket.takeTokens n with
      | some b =>
        some { s.move j n (.returned true) with bucket := b, granted := s.granted + n }
      | none => some (s.move j n (.returned false))
    | _ => none

end Step

/-- Any number of calls, in any order, on a bucket of any rate and capacity. -/
def runs : TransitionSystem BucketRun BucketOp :=
  .ofPartial (fun s ↦ ∃ rate capacity now, s = start rate capacity now) step?

/-! ### What a step can do -/

section Inversion

variable {s s' : BucketRun} {j : ℕ}

theorem step?_readClock {now : ℕ} (h : s.step? (.readClock j now) = some s') :
    ∃ n, s.calls[j]? = some (n, .entered) ∧ s.clock ≤ now ∧
      s' = { s.move j n (.clocked now) with clock := now } := by
  simp only [step?] at h
  split at h
  · next n hj =>
    obtain ⟨hle, heq⟩ := Option.ite_none_right_eq_some.1 h
    exact ⟨n, hj, hle, (Option.some.inj heq).symm⟩
  · cases h

theorem step?_loadLast (h : s.step? (.loadLast j) = some s') :
    ∃ n now, s.calls[j]? = some (n, .clocked now) ∧
      s' = s.move j n (.loaded now s.bucket.lastRefill) := by
  simp only [step?] at h
  split at h
  · next n now hj => exact ⟨n, now, hj, (Option.some.inj h).symm⟩
  · cases h

theorem step?_exchangeLast (h : s.step? (.exchangeLast j) = some s') :
    ∃ n now last, s.calls[j]? = some (n, .loaded now last) ∧
      (s' = s.move j n .refilled ∨
        TokenBucket.credit s.bucket.rate last now ≠ 0 ∧ s.bucket.lastRefill = last ∧
          s' = { s.move j n (.won (TokenBucket.credit s.bucket.rate last now)) with
            bucket := { s.bucket with lastRefill := now } }) := by
  simp only [step?] at h
  split at h
  · next n now last hj =>
    refine ⟨n, now, last, hj, ?_⟩
    split at h
    · exact .inl (Option.some.inj h).symm
    · next hdue =>
      split at h
      · next hlast => exact .inr ⟨hdue, hlast, (Option.some.inj h).symm⟩
      · exact .inl (Option.some.inj h).symm
  · cases h

theorem step?_addTokens (h : s.step? (.addTokens j) = some s') :
    ∃ n credit, s.calls[j]? = some (n, .won credit) ∧
      s' = { s.move j n .refilled with bucket := s.bucket.addTokens credit } := by
  simp only [step?] at h
  split at h
  · next n credit hj => exact ⟨n, credit, hj, (Option.some.inj h).symm⟩
  · cases h

theorem step?_takeTokens (h : s.step? (.takeTokens j) = some s') :
    ∃ n, s.calls[j]? = some (n, .refilled) ∧
      (s' = s.move j n (.returned false) ∨
        ∃ b, s.bucket.takeTokens n = some b ∧
          s' = { s.move j n (.returned true) with bucket := b, granted := s.granted + n }) := by
  simp only [step?] at h
  split at h
  · next n hj =>
    refine ⟨n, hj, ?_⟩
    rcases htake : s.bucket.takeTokens n with - | b
    · rw [htake] at h
      exact .inl (Option.some.inj h).symm
    · rw [htake] at h
      exact .inr ⟨b, rfl, (Option.some.inj h).symm⟩
  · cases h

end Inversion

/-! ### The bound -/

section Bound

variable (s : BucketRun)

/-- The credits won and not yet written. -/
def pending : ℕ := (Tasks.holdings (fun c : ℕ × AllowPoint ↦ c.2.pending) s.calls).sum

/-- Tokens, grants and credits on their way are paid for by the capacity the bucket was filled with
and by the time `last_refill` has moved over. -/
structure Bounded : Prop where
  tokens_le : s.bucket.tokens ≤ s.bucket.capacity
  created_le : s.created ≤ s.bucket.lastRefill
  last_le : s.bucket.lastRefill ≤ s.clock
  time_le : ∀ c ∈ s.calls, ∀ now ∈ c.2.time, now ≤ s.clock
  account : (s.granted + s.bucket.tokens + s.pending) * 1000000 ≤
    s.bucket.capacity * 1000000 + (s.bucket.lastRefill - s.created) * s.bucket.rate

variable {s} {s' : BucketRun} {j n : ℕ} {point point' : AllowPoint}

theorem pending_move_of_eq (hj : s.calls[j]? = some (n, point))
    (heq : point'.pending = point.pending) : (s.move j n point').pending = s.pending :=
  congrArg Multiset.sum (Tasks.holdings_set_of_eq _ (n, point') hj heq)

theorem pending_move_of_gain {credit : ℕ} (hj : s.calls[j]? = some (n, point))
    (hnone : point.pending = none) (hsome : point'.pending = some credit) :
    (s.move j n point').pending = credit + s.pending := by
  have hgain : Tasks.holdings (fun c : ℕ × AllowPoint ↦ c.2.pending) (s.calls.set j (n, point')) =
      credit ::ₘ Tasks.holdings (fun c ↦ c.2.pending) s.calls :=
    Tasks.holdings_set_gain hj hnone hsome
  exact (congrArg Multiset.sum hgain).trans (Multiset.sum_cons _ _)

theorem pending_of_lose {credit : ℕ} (hj : s.calls[j]? = some (n, point))
    (hsome : point.pending = some credit) (hnone : point'.pending = none) :
    s.pending = credit + (s.move j n point').pending := by
  have hlose : Tasks.holdings (fun c : ℕ × AllowPoint ↦ c.2.pending) s.calls =
      credit ::ₘ Tasks.holdings (fun c ↦ c.2.pending) (s.calls.set j (n, point')) :=
    Tasks.holdings_set_lose hj hsome hnone
  exact (congrArg Multiset.sum hlose).trans (Multiset.sum_cons _ _)

/-- The times a moved call may write are those it could write before, or have just been read. -/
theorem time_le_move {clock : ℕ} (h : ∀ c ∈ s.calls, ∀ now ∈ c.2.time, now ≤ clock)
    (hpoint : ∀ now ∈ point'.time, now ≤ clock) :
    ∀ c ∈ (s.move j n point').calls, ∀ now ∈ c.2.time, now ≤ clock := by
  intro c hc
  rcases List.mem_or_eq_of_mem_set hc with hmem | rfl
  · exact h c hmem
  · exact hpoint

/-- A call that moves without winning or writing a credit. -/
theorem Bounded.move (h : s.Bounded) (hj : s.calls[j]? = some (n, point))
    (heq : point'.pending = point.pending) (htime : ∀ now ∈ point'.time, now ≤ s.clock) :
    (s.move j n point').Bounded where
  tokens_le := h.tokens_le
  created_le := h.created_le
  last_le := h.last_le
  time_le := time_le_move h.time_le htime
  account := by
    rw [pending_move_of_eq hj heq]
    exact h.account

/-- The winner of the exchange is credited for no more than the stretch it moves `last_refill`
over. -/
theorem Bounded.exchange (h : s.Bounded) {now credit : ℕ}
    (hj : s.calls[j]? = some (n, .loaded now s.bucket.lastRefill))
    (hcredit : TokenBucket.credit s.bucket.rate s.bucket.lastRefill now = credit)
    (hdue : credit ≠ 0) :
    Bounded { s.move j n (.won credit) with bucket := { s.bucket with lastRefill := now } } := by
  have hlt : s.bucket.lastRefill < now := TokenBucket.lt_of_credit_ne_zero (hcredit ▸ hdue)
  have hnow : now ≤ s.clock := h.time_le _ (List.mem_of_getElem? hj) now rfl
  have hcreated := h.created_le
  refine ⟨h.tokens_le, hcreated.trans hlt.le, hnow, time_le_move h.time_le fun _ h ↦ (by cases h),
    ?_⟩
  have hpending : (s.move j n (.won credit)).pending = credit + s.pending :=
    pending_move_of_gain hj rfl rfl
  have hpaid : credit * 1000000 ≤ (now - s.bucket.lastRefill) * s.bucket.rate :=
    hcredit ▸ TokenBucket.credit_mul_le _ _ _
  have hsplit : now - s.created = (s.bucket.lastRefill - s.created) +
      (now - s.bucket.lastRefill) := by omega
  have htotal : s.granted + s.bucket.tokens + (s.move j n (.won credit)).pending =
      s.granted + s.bucket.tokens + s.pending + credit := by omega
  calc (s.granted + s.bucket.tokens + (s.move j n (.won credit)).pending) * 1000000
      = (s.granted + s.bucket.tokens + s.pending) * 1000000 + credit * 1000000 := by
        rw [htotal, Nat.add_mul _ credit]
    _ ≤ s.bucket.capacity * 1000000 + (s.bucket.lastRefill - s.created) * s.bucket.rate +
        (now - s.bucket.lastRefill) * s.bucket.rate := Nat.add_le_add h.account hpaid
    _ = s.bucket.capacity * 1000000 + (now - s.created) * s.bucket.rate := by
        rw [hsplit, Nat.add_mul (s.bucket.lastRefill - s.created), Nat.add_assoc]

theorem Bounded.step {op : BucketOp} (h : s.Bounded) (hstep : s.step? op = some s') :
    s'.Bounded := by
  cases op with
  | call n =>
    obtain rfl := Option.some.inj hstep
    refine ⟨h.tokens_le, h.created_le, h.last_le, fun c hc ↦ ?_, ?_⟩
    · rcases List.mem_append.1 hc with hc | hc
      · exact h.time_le c hc
      · obtain rfl := List.mem_singleton.1 hc
        exact fun _ h ↦ (by cases h)
    · have hpending : BucketRun.pending { s with calls := s.calls ++ [(n, .entered)] } =
          s.pending := by
        simp [BucketRun.pending, Tasks.holdings_append_singleton, AllowPoint.pending]
      rw [hpending]
      exact h.account
  | readClock j now =>
    obtain ⟨n, hj, hle, rfl⟩ := step?_readClock hstep
    have hmove : (s.move j n (.clocked now)).pending = s.pending := pending_move_of_eq hj rfl
    refine ⟨h.tokens_le, h.created_le, h.last_le.trans hle, ?_, ?_⟩
    · refine time_le_move (fun c hc t ht ↦ (h.time_le c hc t ht).trans hle) fun t ht ↦ ?_
      exact (Option.some.inj ht).ge
    · have haccount := h.account
      rw [← hmove] at haccount
      exact haccount
  | loadLast j =>
    obtain ⟨n, now, hj, rfl⟩ := step?_loadLast hstep
    exact h.move hj rfl (h.time_le _ (List.mem_of_getElem? hj))
  | exchangeLast j =>
    obtain ⟨n, now, last, hj, rfl | ⟨hdue, rfl, rfl⟩⟩ := step?_exchangeLast hstep
    · exact h.move hj rfl fun _ h ↦ (by cases h)
    · exact h.exchange hj rfl hdue
  | addTokens j =>
    obtain ⟨n, credit, hj, rfl⟩ := step?_addTokens hstep
    have hpending : s.pending = credit + (s.move j n .refilled).pending :=
      pending_of_lose hj rfl rfl
    have hle := s.bucket.addTokens_tokens_le credit
    refine ⟨s.bucket.addTokens_tokens_le_capacity credit, h.created_le, h.last_le,
      time_le_move h.time_le fun _ h ↦ (by cases h), le_trans ?_ h.account⟩
    refine Nat.mul_le_mul_right _ ?_
    show s.granted + (s.bucket.addTokens credit).tokens + (s.move j n .refilled).pending ≤
      s.granted + s.bucket.tokens + s.pending
    omega
  | takeTokens j =>
    obtain ⟨n, hj, rfl | ⟨b, htake, rfl⟩⟩ := step?_takeTokens hstep
    · exact h.move hj rfl fun _ h ↦ (by cases h)
    · obtain ⟨htokens, rfl⟩ := TokenBucket.takeTokens_eq_some htake
      have hpending : (s.move j n (.returned true)).pending = s.pending :=
        pending_move_of_eq hj rfl
      refine ⟨(Nat.sub_le _ _).trans h.tokens_le, h.created_le, h.last_le,
        time_le_move h.time_le fun _ h ↦ (by cases h), le_trans ?_ h.account⟩
      refine Nat.mul_le_mul_right _ ?_
      show s.granted + n + (s.bucket.tokens - n) + (s.move j n (.returned true)).pending ≤
        s.granted + s.bucket.tokens + s.pending
      rw [hpending]
      dsimp only at htokens
      omega

theorem bounded_start (rate capacity now : ℕ) : (start rate capacity now).Bounded := by
  refine ⟨le_rfl, le_rfl, le_rfl, fun c hc ↦ (by cases hc), ?_⟩
  show (0 + capacity + 0) * 1000000 ≤ capacity * 1000000 + (now - now) * rate
  omega

theorem bounded_invariant : runs.Invariant Bounded where
  init s hs := by
    obtain ⟨rate, capacity, now, rfl⟩ := hs
    exact bounded_start rate capacity now
  step _ _ _ h hstep := h.step hstep

/-- **The token bucket's bound.** What has been granted fits in the capacity and in what the rate
gives for the time since the bucket was built. -/
theorem granted_le (hs : runs.Reachable s) :
    s.granted ≤ s.bucket.capacity + (s.clock - s.created) * s.bucket.rate / 1000000 := by
  have h := bounded_invariant.of_reachable hs
  have hlast := h.last_le
  have helapsed : (s.bucket.lastRefill - s.created) * s.bucket.rate ≤
      (s.clock - s.created) * s.bucket.rate := Nat.mul_le_mul_right _ (by omega)
  have haccount := h.account
  omega

/-- A step takes exactly what it grants off the tokens: they never wrap. -/
theorem tokens_of_granted {op : BucketOp} (hstep : s.step? op = some s') :
    s'.granted = s.granted ∨
      ∃ n, s'.granted = s.granted + n ∧ s.bucket.tokens = s'.bucket.tokens + n := by
  cases op with
  | call n =>
    obtain rfl := Option.some.inj hstep
    exact .inl rfl
  | readClock j now =>
    obtain ⟨n, -, -, rfl⟩ := step?_readClock hstep
    exact .inl rfl
  | loadLast j =>
    obtain ⟨n, now, -, rfl⟩ := step?_loadLast hstep
    exact .inl rfl
  | exchangeLast j =>
    obtain ⟨n, now, last, -, rfl | ⟨-, -, rfl⟩⟩ := step?_exchangeLast hstep <;> exact .inl rfl
  | addTokens j =>
    obtain ⟨n, credit, -, rfl⟩ := step?_addTokens hstep
    exact .inl rfl
  | takeTokens j =>
    obtain ⟨n, -, rfl | ⟨b, htake, rfl⟩⟩ := step?_takeTokens hstep
    · exact .inl rfl
    · exact .inr ⟨n, rfl, (TokenBucket.takeTokens_eq_some htake).1⟩

/-- A step keeps the rate, the capacity and when the bucket was built; the clock goes to the time
that is read. -/
theorem step?_fixed {op : BucketOp} (hstep : s.step? op = some s') :
    s'.bucket.rate = s.bucket.rate ∧ s'.bucket.capacity = s.bucket.capacity ∧
      s'.created = s.created ∧ (s'.clock = s.clock ∨ ∃ j, op = .readClock j s'.clock) := by
  cases op with
  | call n =>
    obtain rfl := Option.some.inj hstep
    exact ⟨rfl, rfl, rfl, .inl rfl⟩
  | readClock j now =>
    obtain ⟨n, -, -, rfl⟩ := step?_readClock hstep
    exact ⟨rfl, rfl, rfl, .inr ⟨j, rfl⟩⟩
  | loadLast j =>
    obtain ⟨n, now, -, rfl⟩ := step?_loadLast hstep
    exact ⟨rfl, rfl, rfl, .inl rfl⟩
  | exchangeLast j =>
    obtain ⟨n, now, last, -, rfl | ⟨-, -, rfl⟩⟩ := step?_exchangeLast hstep <;>
      exact ⟨rfl, rfl, rfl, .inl rfl⟩
  | addTokens j =>
    obtain ⟨n, credit, -, rfl⟩ := step?_addTokens hstep
    exact ⟨rfl, rfl, rfl, .inl rfl⟩
  | takeTokens j =>
    obtain ⟨n, -, rfl | ⟨b, htake, rfl⟩⟩ := step?_takeTokens hstep
    · exact ⟨rfl, rfl, rfl, .inl rfl⟩
    · obtain ⟨-, rfl⟩ := TokenBucket.takeTokens_eq_some htake
      exact ⟨rfl, rfl, rfl, .inl rfl⟩

end Bound

/-! ### A call nobody interrupts -/

section Uninterrupted

variable {s t : BucketRun} {j n : ℕ} {point point' : AllowPoint}

theorem calls_move (hj : s.calls[j]? = some (n, point)) :
    (s.move j n point').calls[j]? = some (n, point') :=
  List.getElem?_set_self (List.getElem?_eq_some_iff.1 hj).1

/-- From where the refill is done, the call ends with `takeTokens`. -/
theorem leads_takeTokens (hs : runs.Leads t s) (hj : s.calls[j]? = some (n, .refilled)) :
    ∃ s', runs.Leads t s' ∧
      ((∃ b, s.bucket.takeTokens n = some b ∧ s'.bucket = b ∧ s'.granted = s.granted + n) ∨
        s.bucket.takeTokens n = none ∧ s'.bucket = s.bucket ∧ s'.granted = s.granted) := by
  rcases htake : s.bucket.takeTokens n with - | b
  · refine ⟨s.move j n (.returned false), hs.tail ⟨.takeTokens j, ?_⟩, .inr ⟨rfl, rfl, rfl⟩⟩
    show s.step? (.takeTokens j) = _
    simp only [step?, hj, htake]
  · refine ⟨{ s.move j n (.returned true) with bucket := b, granted := s.granted + n },
      hs.tail ⟨.takeTokens j, ?_⟩, .inl ⟨b, rfl, rfl, rfl⟩⟩
    show s.step? (.takeTokens j) = _
    simp only [step?, hj, htake]

/-- A call reads the clock and loads `last_refill`. -/
theorem leads_loaded (s : BucketRun) (n : ℕ) {now : ℕ} (hnow : s.clock ≤ now) :
    ∃ s' : BucketRun, runs.Leads s s' ∧ s'.bucket = s.bucket ∧ s'.granted = s.granted ∧
      ∃ j : ℕ, s'.calls[j]? = some (n, .loaded now s.bucket.lastRefill) := by
  let entered : BucketRun := { s with calls := s.calls ++ [(n, .entered)] }
  let clocked : BucketRun := { entered.move s.calls.length n (.clocked now) with clock := now }
  let loaded : BucketRun := clocked.move s.calls.length n (.loaded now s.bucket.lastRefill)
  have hentered : entered.calls[s.calls.length]? = some (n, .entered) := by simp [entered]
  have hclocked : clocked.calls[s.calls.length]? = some (n, .clocked now) :=
    calls_move hentered
  have hcall : runs.Step s (.call n) entered := rfl
  have hread : runs.Step entered (.readClock s.calls.length now) clocked := by
    show entered.step? _ = _
    simp only [step?, hentered]
    exact if_pos hnow
  have hload : runs.Step clocked (.loadLast s.calls.length) loaded := by
    show clocked.step? _ = _
    simp only [step?, hclocked]
    rfl
  have hleads : runs.Leads s loaded :=
    ((Relation.ReflTransGen.single ⟨_, hcall⟩).tail ⟨_, hread⟩).tail ⟨_, hload⟩
  exact ⟨loaded, hleads, rfl, rfl, s.calls.length, calls_move hclocked⟩

/-- `allowN` is the call whose steps follow one another. -/
theorem leads_allowN (s : BucketRun) (n : ℕ) {now : ℕ} (hnow : s.clock ≤ now) :
    ∃ s', runs.Leads s s' ∧ s'.bucket = (s.bucket.allowN now n).1 ∧
      s'.granted = s.granted + if (s.bucket.allowN now n).2 then n else 0 := by
  obtain ⟨l, hl, hbucket, hgranted, j, hj⟩ := leads_loaded s n hnow
  have hrefill : ∃ r, runs.Leads s r ∧ r.bucket = s.bucket.refill now ∧ r.granted = s.granted ∧
      r.calls[j]? = some (n, .refilled) := by
    rw [TokenBucket.refill]
    by_cases hdue : TokenBucket.credit s.bucket.rate s.bucket.lastRefill now = 0
    · rw [if_pos hdue]
      refine ⟨l.move j n .refilled, hl.tail ⟨.exchangeLast j, ?_⟩, hbucket, hgranted, calls_move hj⟩
      show l.step? _ = _
      simp only [step?, hj, hbucket, hdue]
      rfl
    · rw [if_neg hdue]
      let won : BucketRun :=
        { l.move j n (.won (TokenBucket.credit s.bucket.rate s.bucket.lastRefill now)) with
          bucket := { s.bucket with lastRefill := now } }
      have hwon : won.calls[j]? =
          some (n, .won (TokenBucket.credit s.bucket.rate s.bucket.lastRefill now)) := calls_move hj
      have hexchange : runs.Step l (.exchangeLast j) won := by
        show l.step? _ = _
        simp only [step?, hj, hbucket, if_neg hdue]
        rfl
      have hadd : won.step? (.addTokens j) = some { won.move j n .refilled with
          bucket := won.bucket.addTokens
            (TokenBucket.credit s.bucket.rate s.bucket.lastRefill now) } := by
        simp only [step?, hwon]
      exact ⟨_, (hl.tail ⟨_, hexchange⟩).tail ⟨_, hadd⟩, rfl, hgranted, calls_move hwon⟩
  obtain ⟨r, hr, hbucket', hgranted', hready⟩ := hrefill
  obtain ⟨s', hs', hend⟩ := leads_takeTokens hr hready
  refine ⟨s', hs', ?_⟩
  rw [hbucket', hgranted'] at hend
  rw [TokenBucket.allowN]
  rcases hend with ⟨b, htake, hb, hg⟩ | ⟨htake, hb, hg⟩
  · rw [htake]
    exact ⟨hb, hg⟩
  · rw [htake]
    exact ⟨hb, hg⟩

end Uninterrupted

end BucketRun

end Himadri
