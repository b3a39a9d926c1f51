import Himadri.RateLimit.TokenBucket
import Mathlib.Data.List.Pairwise

/-!
# What one caller is credited

A caller that polls a token bucket moves `last_refill` to the time of the poll whenever a whole
token is due, and the fraction of a token beyond the whole ones is dropped there. A poll that finds
nothing due leaves `last_refill` where it is and loses nothing. `dropped` adds the fractions up, in
millionths of a token, and `mark` is where `last_refill` ends; both read the times of the polls and
the rate alone. The credit, what was dropped and what is pending at the last poll make up exactly
what the rate gives (`delivered_add_dropped`).
-/

namespace Himadri

namespace TokenBucket

/-! ### The calls of one caller -/

section Polls

variable (b : TokenBucket)

/-- The tokens the refills of some calls of `allow_n` credit, each at its time and for its number of
tokens. -/
def delivered : (b : TokenBucket) → (calls : List (ℕ × ℕ)) → ℕ
  | _, [] => 0
  | b, (now, n) :: rest =>
    ((b.refill now).tokens - b.tokens) + delivered (b.allowN now n).1 rest

/-- The bucket is not full, neither now nor at any refill. -/
def NeverFull : (b : TokenBucket) → (calls : List (ℕ × ℕ)) → Prop
  | b, [] => b.tokens < b.capacity
  | b, (now, n) :: rest =>
    b.tokens < b.capacity ∧ (b.refill now).tokens < b.capacity ∧ NeverFull (b.allowN now n).1 rest

instance decidableNeverFull :
    (b : TokenBucket) → (calls : List (ℕ × ℕ)) → Decidable (b.NeverFull calls)
  | b, [] => inferInstanceAs (Decidable (b.tokens < b.capacity))
  | b, (now, n) :: rest =>
    have : Decidable ((b.allowN now n).1.NeverFull rest) := decidableNeverFull _ rest
    inferInstanceAs (Decidable (b.tokens < b.capacity ∧ (b.refill now).tokens < b.capacity ∧
      (b.allowN now n).1.NeverFull rest))

/-- The times of the calls. -/
def times (calls : List (ℕ × ℕ)) : List ℕ := calls.map Prod.fst

/-- The time of the last call, or else `t₀`. -/
def lastTime (t₀ : ℕ) (calls : List (ℕ × ℕ)) : ℕ := (times calls).getLastD t₀

/-- The whole tokens the rate gives from `t₀` to the last call are credited, up to one. -/
def Delivers (t₀ : ℕ) (calls : List (ℕ × ℕ)) : Prop :=
  (lastTime t₀ calls - t₀) * b.rate / 1000000 ≤ b.delivered calls + 1

instance (t₀ : ℕ) (calls : List (ℕ × ℕ)) : Decidable (b.Delivers t₀ calls) :=
  inferInstanceAs (Decidable (_ ≤ _))

end Polls

/-! ### What is dropped -/

/-- The millionths of a token that polls at these times drop. -/
def dropped (rate : ℕ) : (last : ℕ) → (times : List ℕ) → ℕ
  | _, [] => 0
  | last, now :: rest =>
    if credit rate last now = 0 then dropped rate last rest
    else ((now - last) * rate - credit rate last now * 1000000) + dropped rate now rest

/-- Where polls at these times leave `last_refill`. -/
def mark (rate : ℕ) : (last : ℕ) → (times : List ℕ) → ℕ
  | last, [] => last
  | last, now :: rest =>
    if credit rate last now = 0 then mark rate last rest else mark rate now rest

variable {b : TokenBucket} {now n t₀ : ℕ} {calls : List (ℕ × ℕ)}

@[simp] theorem refill_rate : (b.refill now).rate = b.rate := by
  rw [refill]
  split <;> rfl

@[simp] theorem refill_capacity : (b.refill now).capacity = b.capacity := by
  rw [refill]
  split <;> rfl

theorem refill_lastRefill : (b.refill now).lastRefill =
    if credit b.rate b.lastRefill now = 0 then b.lastRefill else now := by
  rw [refill]
  split <;> rfl

variable (b now n) in
/-- A consumption touches the tokens alone. -/
theorem allowN_fixed : (b.allowN now n).1.rate = b.rate ∧
    (b.allowN now n).1.capacity = b.capacity ∧
      (b.allowN now n).1.lastRefill = (b.refill now).lastRefill := by
  rw [allowN]
  rcases htake : (b.refill now).takeTokens n with - | b'
  · exact ⟨refill_rate, refill_capacity, rfl⟩
  · obtain ⟨-, rfl⟩ := takeTokens_eq_some htake
    exact ⟨refill_rate, refill_capacity, rfl⟩

/-- A refill that does not fill the bucket credits all that is due. -/
theorem refill_tokens (hcap : b.capacity < UInt64.size) (h : (b.refill now).tokens < b.capacity) :
    (b.refill now).tokens = b.tokens + credit b.rate b.lastRefill now := by
  rw [refill] at h ⊢
  split at h
  · next hzero => rw [if_pos hzero, hzero, Nat.add_zero]
  · next hdue =>
    rw [if_neg hdue]
    simp only [addTokens] at h ⊢
    omega

/-! ### The account -/

section Account

variable {rate last : ℕ} {rest : List ℕ}

theorem le_mark {times : List ℕ} (h : (last :: times).Pairwise (· ≤ ·)) :
    last ≤ mark rate last times := by
  induction times generalizing last with
  | nil => exact le_rfl
  | cons now rest ih =>
    obtain ⟨hlast, hrest⟩ := List.pairwise_cons.1 h
    rw [mark]
    split
    · exact ih (h.sublist ((List.sublist_cons_self _ _).cons_cons _))
    · exact (hlast now List.mem_cons_self).trans (ih hrest)

/-- `last_refill` ends at a poll, or where it was. -/
theorem mark_le {times : List ℕ} {t : ℕ} (hlast : last ≤ t) (h : ∀ now ∈ times, now ≤ t) :
    mark rate last times ≤ t := by
  induction times generalizing last with
  | nil => exact hlast
  | cons now rest ih =>
    have hrest : ∀ now ∈ rest, now ≤ t := fun now hnow ↦ h now (List.mem_cons_of_mem _ hnow)
    rw [mark]
    split
    · exact ih hlast hrest
    · exact ih (h now List.mem_cons_self) hrest

theorem carry_add {x y c d : ℕ} (h : c ≤ x) : c + y + (x - c + d) = x + (y + d) := by omega

/-- **What is credited and what is dropped** make up what the rate gives for the stretch
`last_refill` has moved over. -/
theorem delivered_add_dropped (hcap : b.capacity < UInt64.size) (hfull : b.NeverFull calls)
    (htimes : (b.lastRefill :: times calls).Pairwise (· ≤ ·)) :
    b.delivered calls * 1000000 + dropped b.rate b.lastRefill (times calls) =
      (mark b.rate b.lastRefill (times calls) - b.lastRefill) * b.rate := by
  induction calls generalizing b with
  | nil => simp [delivered, times, dropped, mark]
  | cons call rest ih =>
    obtain ⟨now, n⟩ := call
    obtain ⟨-, hrefill, hrest⟩ := hfull
    obtain ⟨hrate, hcapacity, hlast⟩ := allowN_fixed b now n
    have htokens := refill_tokens hcap hrefill
    have htail : (b.lastRefill :: times rest).Pairwise (· ≤ ·) :=
      htimes.sublist ((List.sublist_cons_self _ _).cons_cons _)
    have hnext := ih (b := (b.allowN now n).1) (hcapacity ▸ hcap) hrest
    rw [hrate, hlast, refill_lastRefill] at hnext
    rw [delivered, show times ((now, n) :: rest) = now :: times rest from rfl, dropped, mark,
      htokens, Nat.add_sub_cancel_left]
    by_cases hdue : credit b.rate b.lastRefill now = 0
    -- nothing is due, and `last_refill` stays
    · rw [if_pos hdue] at hnext
      rw [if_pos hdue, if_pos hdue, hdue, Nat.zero_add]
      exact hnext htail
    -- the poll drops what is beyond the whole tokens
    · obtain ⟨hle, hlater⟩ := List.pairwise_cons.1 htimes
      rw [if_neg hdue] at hnext
      rw [if_neg hdue, if_neg hdue]
      have hfrom := hnext hlater
      have hnow : b.lastRefill ≤ now := hle now List.mem_cons_self
      have hmark : now ≤ mark b.rate now (times rest) := le_mark hlater
      have hpaid := credit_mul_le b.rate b.lastRefill now
      have hsplit : mark b.rate now (times rest) - b.lastRefill =
          (now - b.lastRefill) + (mark b.rate now (times rest) - now) := by omega
      rw [hsplit, Nat.add_mul _ _ b.rate, ← hfrom, Nat.add_mul (credit _ _ _)]
      exact carry_add hpaid

/-- Of times in order the last is the latest. -/
theorem le_getLastD {times : List ℕ} {t : ℕ} (h : (t :: times).Pairwise (· ≤ ·)) :
    ∀ x ∈ t :: times, x ≤ times.getLastD t := by
  induction times generalizing t with
  | nil => exact fun x hx ↦ (List.mem_singleton.1 hx).le
  | cons now rest ih =>
    obtain ⟨ht, hrest⟩ := List.pairwise_cons.1 h
    rw [List.getLastD_cons]
    intro x hx
    rcases List.mem_cons.1 hx with rfl | hx
    · exact (ht now List.mem_cons_self).trans (ih hrest now List.mem_cons_self)
    · exact ih hrest x hx

/-- **When polling delivers the rate.** One caller polls a bucket that is not full from `t₀` on. It
is credited the whole tokens of the rate, up to one, exactly when the fractions its polls drop and
the one that is pending at the last poll come to less than two tokens beside what was pending at
`t₀`. -/
theorem delivers_iff (hcap : b.capacity < UInt64.size) (hlast : b.lastRefill ≤ t₀)
    (htimes : (t₀ :: times calls).Pairwise (· ≤ ·)) (hfull : b.NeverFull calls) :
    b.Delivers t₀ calls ↔
      dropped b.rate b.lastRefill (times calls) +
          (lastTime t₀ calls - mark b.rate b.lastRefill (times calls)) * b.rate <
        2000000 + (t₀ - b.lastRefill) * b.rate := by
  obtain ⟨hfirst, hsorted⟩ := List.pairwise_cons.1 htimes
  have hfrom : (b.lastRefill :: times calls).Pairwise (· ≤ ·) :=
    List.pairwise_cons.2 ⟨fun now hnow ↦ hlast.trans (hfirst now hnow), hsorted⟩
  have haccount := delivered_add_dropped hcap hfull hfrom
  have hlatest : ∀ x ∈ t₀ :: times calls, x ≤ lastTime t₀ calls := le_getLastD htimes
  have hstart : t₀ ≤ lastTime t₀ calls := hlatest t₀ List.mem_cons_self
  have hmark : mark b.rate b.lastRefill (times calls) ≤ lastTime t₀ calls :=
    mark_le (hlast.trans hstart) fun now hnow ↦ hlatest now (List.mem_cons_of_mem _ hnow)
  have hmarked : b.lastRefill ≤ mark b.rate b.lastRefill (times calls) := le_mark hfrom
  clear hcap
  rw [Delivers]
  generalize mark b.rate b.lastRefill (times calls) = m at haccount hmark hmarked ⊢
  generalize lastTime t₀ calls = t at hstart hmark ⊢
  -- from the old mark to the last poll, cut at `t₀` and at the new mark
  have hcut : (t - t₀) * b.rate + (t₀ - b.lastRefill) * b.rate =
      (m - b.lastRefill) * b.rate + (t - m) * b.rate := by
    rw [← Nat.add_mul, ← Nat.add_mul]
    congr 1
    omega
  omega

end Account

/-! ### A caller that is credited half the rate -/

/-- A bucket of one token a second that has been emptied. -/
def emptied : TokenBucket := ((new 1 10 0).allowN 0 10).1

/-- Polls just short of every other second. -/
def shortOfTwoSeconds : List (ℕ × ℕ) := [(1999999, 1), (3999998, 1), (5999997, 1)]

/-- Of the five whole tokens of six seconds three are credited. -/
theorem shortOfTwoSeconds_loses :
    emptied.lastRefill ≤ 0 ∧ (0 :: times shortOfTwoSeconds).Pairwise (· ≤ ·) ∧
      emptied.NeverFull shortOfTwoSeconds ∧ ¬ emptied.Delivers 0 shortOfTwoSeconds := by
  decide

/-- Polls every two seconds lose nothing. -/
theorem delivers_everyTwoSeconds :
    emptied.Delivers 0 [(2000000, 1), (4000000, 1), (6000000, 1)] :=
  (delivers_iff (by decide) (by decide) (by decide) (by decide)).2 (by decide)

end TokenBucket

end Himadri
