import Himadri.RateLimit.Polling

/-!
# Checks against several buckets

The checks of `RateLimiter`, and a request that is checked against one bucket after another until
one of them has no token for it. A check finds the bucket that was built with its parameters, or
else builds a full one, so what a bucket holds is said for a check and a time: `tokensFor`.
-/

namespace Himadri

/-- `ShardedRateLimiter::allow_with_params`, uninterrupted; the shards are one map. -/
def allowWithParams (buckets : KeyMap String TokenBucket) (key : String) (rate capacity now : ℕ) :
    KeyMap String TokenBucket × Bool :=
  let fresh : TokenBucket := .new rate capacity now
  let bucket :=
    match buckets.get key with
    | some bucket => if bucket.rate = rate ∧ bucket.capacity = capacity then bucket else fresh
    | none => fresh
  (buckets.insert key (bucket.allowN now 1).1, (bucket.allowN now 1).2)

/-- The buckets of a limiter. -/
inductive BucketName
  | global
  | entity (key : String)
  deriving DecidableEq

/-- A check against a bucket, with its parameters. -/
structure BucketCheck where
  name : BucketName
  rate : ℕ
  burst : ℕ
  deriving DecidableEq

namespace RateLimiter

variable (limiter : RateLimiter) (now : ℕ)

/-- `RateLimiter::check_global`. -/
def checkGlobal : RateLimiter × Bool :=
  let checked :=
    allowWithParams limiter.global "global" limiter.defaultRate limiter.defaultBurst now
  ({ limiter with global := checked.1 }, checked.2)

/-- `RateLimiter::check_entity`. -/
def checkEntity (scope id : String) (rate burst : Option ℕ) : RateLimiter × Bool :=
  let checked := allowWithParams limiter.perEntity (scope ++ ":" ++ id)
    (rate.getD limiter.defaultRate) (burst.getD limiter.defaultBurst) now
  ({ limiter with perEntity := checked.1 }, checked.2)

/-- `RateLimiter::check_org`. -/
def checkOrg (orgId : String) (rate burst : Option ℕ) : RateLimiter × Bool :=
  limiter.checkEntity now "org" orgId rate burst

/-- `RateLimiter::check_key`. -/
def checkKey (keyId : String) (rate burst : Option ℕ) : RateLimiter × Bool :=
  limiter.checkEntity now "key" keyId rate burst

/-- A check of either kind. -/
def check (c : BucketCheck) : RateLimiter × Bool :=
  match c.name with
  | .global =>
    let checked := allowWithParams limiter.global "global" c.rate c.burst now
    ({ limiter with global := checked.1 }, checked.2)
  | .entity key =>
    let checked := allowWithParams limiter.perEntity key c.rate c.burst now
    ({ limiter with perEntity := checked.1 }, checked.2)

/-- The check of `check_global`. -/
def globalCheck : BucketCheck := ⟨.global, limiter.defaultRate, limiter.defaultBurst⟩

/-- The check of `check_entity`. -/
def entityCheck (scope id : String) (rate burst : Option ℕ) : BucketCheck :=
  ⟨.entity (scope ++ ":" ++ id), rate.getD limiter.defaultRate, burst.getD limiter.defaultBurst⟩

theorem checkGlobal_eq : limiter.checkGlobal now = limiter.check now limiter.globalCheck := rfl

/-- The bucket of a name. -/
def bucket : BucketName → Option TokenBucket
  | .global => limiter.global.get "global"
  | .entity key => limiter.perEntity.get key

/-- The bucket a check calls. -/
def found (c : BucketCheck) : TokenBucket :=
  match limiter.bucket c.name with
  | some bucket =>
    if bucket.rate = c.rate ∧ bucket.capacity = c.burst then bucket else .new c.rate c.burst now
  | none => .new c.rate c.burst now

/-- The tokens a check finds. -/
def tokensFor (c : BucketCheck) : ℕ := ((limiter.found now c).refill now).tokens

/-- No bucket holds more than its capacity. -/
def Sound : Prop := ∀ name bucket, limiter.bucket name = some bucket →
  bucket.tokens ≤ bucket.capacity

/-- One check after another, up to the first that finds no token. -/
def runChecks (now : ℕ) : List BucketCheck → RateLimiter → RateLimiter × Bool
  | [], limiter => (limiter, true)
  | c :: cs, limiter =>
    if (limiter.check now c).2 then runChecks now cs (limiter.check now c).1
    else ((limiter.check now c).1, false)

/-! ### What one check does -/

variable {limiter now} {c d : BucketCheck}

theorem check_snd : (limiter.check now c).2 = ((limiter.found now c).allowN now 1).2 := by
  obtain ⟨name, rate, burst⟩ := c
  cases name <;> rfl

theorem bucket_check (name : BucketName) : (limiter.check now c).1.bucket name =
    if name = c.name then some ((limiter.found now c).allowN now 1).1 else limiter.bucket name := by
  obtain ⟨cname, rate, burst⟩ := c
  rcases cname with - | key
  · rcases name with - | key'
    · exact KeyMap.get_insert_self ..
    · rfl
  · rcases name with - | key'
    · rfl
    · rcases eq_or_ne key' key with rfl | hne
      · rw [if_pos rfl]
        exact KeyMap.get_insert_self ..
      · rw [if_neg (by simpa using hne)]
        exact KeyMap.get_insert_of_ne hne

theorem check_defaults : (limiter.check now c).1.defaultRate = limiter.defaultRate ∧
    (limiter.check now c).1.defaultBurst = limiter.defaultBurst := by
  obtain ⟨name, rate, burst⟩ := c
  cases name <;> exact ⟨rfl, rfl⟩

variable (limiter now c) in
theorem found_fixed : (limiter.found now c).rate = c.rate ∧
    (limiter.found now c).capacity = c.burst := by
  rw [found]
  split
  · split
    · next h => exact h
    · exact ⟨rfl, rfl⟩
  · exact ⟨rfl, rfl⟩

end RateLimiter

namespace TokenBucket

variable {b : TokenBucket} {now n : ℕ}

/-- A second refill at the same time finds nothing due. -/
theorem refill_refill : (b.refill now).refill now = b.refill now := by
  have hnone : credit (b.refill now).rate (b.refill now).lastRefill now = 0 := by
    rw [refill_rate, refill_lastRefill]
    split
    · next h => exact h
    · simp [credit]
  rw [refill, if_pos hnone]

/-- A call takes its tokens off what the refill leaves, where there are as many. -/
theorem tokens_allowN : (b.allowN now n).2 = decide (n ≤ (b.refill now).tokens) ∧
    ((b.allowN now n).1.refill now).tokens =
      if n ≤ (b.refill now).tokens then (b.refill now).tokens - n else (b.refill now).tokens := by
  rw [allowN, takeTokens]
  by_cases h : n ≤ (b.refill now).tokens
  · rw [if_pos h, if_pos h]
    refine ⟨(decide_eq_true h).symm, ?_⟩
    -- the refill looks at `last_refill` alone, which the consumption leaves
    have hnone : credit (b.refill now).rate (b.refill now).lastRefill now = 0 := by
      rw [refill_rate, refill_lastRefill]
      split
      · next h => exact h
      · simp [credit]
    dsimp only
    rw [refill, if_pos hnone]
  · rw [if_neg h, if_neg h]
    exact ⟨(decide_eq_false h).symm, congrArg tokens refill_refill⟩

theorem tokens_refill_le (h : b.tokens ≤ b.capacity) : (b.refill now).tokens ≤ b.capacity := by
  rw [refill]
  split
  · exact h
  · exact addTokens_tokens_le_capacity _

theorem tokens_allowN_le (h : b.tokens ≤ b.capacity) :
    (b.allowN now n).1.tokens ≤ (b.allowN now n).1.capacity := by
  have hrefill : (b.refill now).tokens ≤ (b.refill now).capacity := by
    rw [refill_capacity]
    exact tokens_refill_le h
  rw [allowN, takeTokens]
  by_cases hn : n ≤ (b.refill now).tokens
  · rw [if_pos hn]
    exact (Nat.sub_le _ _).trans hrefill
  · rw [if_neg hn]
    exact hrefill

theorem refill_new (rate capacity now : ℕ) :
    (new rate capacity now).refill now = new rate capacity now := by
  have hnone : credit (new rate capacity now).rate (new rate capacity now).lastRefill now = 0 := by
    simp [credit, new]
  rw [refill, if_pos hnone]

end TokenBucket

namespace RateLimiter

variable {limiter : RateLimiter} {now : ℕ} {c d : BucketCheck}

theorem Sound.found (h : limiter.Sound) (now : ℕ) (c : BucketCheck) :
    (limiter.found now c).tokens ≤ (limiter.found now c).capacity := by
  rw [RateLimiter.found]
  split
  · next bucket hbucket =>
    split
    · exact h c.name bucket hbucket
    · exact le_rfl
  · exact le_rfl

theorem Sound.check (h : limiter.Sound) (now : ℕ) (c : BucketCheck) :
    (limiter.check now c).1.Sound := by
  intro name bucket hbucket
  rw [bucket_check] at hbucket
  split at hbucket
  · obtain rfl := Option.some.inj hbucket
    exact TokenBucket.tokens_allowN_le (h.found now c)
  · exact h name bucket hbucket

/-- A check passes exactly when it finds a token. -/
theorem check_snd_iff : (limiter.check now c).2 ↔ 0 < limiter.tokensFor now c := by
  rw [check_snd, TokenBucket.tokens_allowN.1, decide_eq_true_iff]
  rfl

/-- A check that passes takes one token. -/
theorem tokensFor_check_self : (limiter.check now c).1.tokensFor now c =
    if 0 < limiter.tokensFor now c then limiter.tokensFor now c - 1
    else limiter.tokensFor now c := by
  have hfound : (limiter.check now c).1.found now c = ((limiter.found now c).allowN now 1).1 := by
    obtain ⟨hrate, hcapacity⟩ := found_fixed limiter now c
    obtain ⟨hrate', hcapacity', -⟩ :=
      TokenBucket.allowN_fixed (limiter.found now c) now 1
    rw [RateLimiter.found, bucket_check, if_pos rfl]
    exact if_pos ⟨hrate'.trans hrate, hcapacity'.trans hcapacity⟩
  rw [tokensFor, hfound]
  exact TokenBucket.tokens_allowN.2

theorem found_of_bucket_eq {limiter' : RateLimiter}
    (h : limiter'.bucket d.name = limiter.bucket d.name) :
    limiter'.found now d = limiter.found now d := by
  rw [RateLimiter.found, RateLimiter.found, h]

/-- A check leaves the buckets of other names. -/
theorem found_check_of_ne (hne : d.name ≠ c.name) :
    (limiter.check now c).1.found now d = limiter.found now d :=
  found_of_bucket_eq ((bucket_check ..).trans (if_neg hne))

/-- No other check finds fewer tokens than before: the bucket of a name is rebuilt for it. -/
theorem tokensFor_check_of_ne (h : limiter.Sound) (hne : d ≠ c) :
    limiter.tokensFor now d ≤ (limiter.check now c).1.tokensFor now d := by
  by_cases hname : d.name = c.name
  · have hfound : (limiter.check now c).1.found now d = .new d.rate d.burst now := by
      obtain ⟨hrate, hcapacity⟩ := found_fixed limiter now c
      obtain ⟨hrate', hcapacity', -⟩ :=
        TokenBucket.allowN_fixed (limiter.found now c) now 1
      rw [RateLimiter.found, bucket_check, if_pos hname]
      refine if_neg fun hparams ↦ hne ?_
      rw [hrate', hrate, hcapacity', hcapacity] at hparams
      obtain ⟨name, rate, burst⟩ := d
      obtain ⟨name', rate', burst'⟩ := c
      obtain ⟨rfl, rfl⟩ := hparams
      exact congrArg (BucketCheck.mk · _ _) hname
    rw [tokensFor, tokensFor, hfound, TokenBucket.refill_new]
    exact (TokenBucket.tokens_refill_le (h.found now d)).trans (found_fixed ..).2.le
  · rw [tokensFor, tokensFor, found_check_of_ne hname]

/-! ### A request against several buckets -/

variable {cs : List BucketCheck}

theorem runChecks_singleton : runChecks now [c] limiter = limiter.check now c := by
  rw [runChecks]
  rcases hcheck : limiter.check now c with ⟨limiter', - | -⟩ <;> rfl

theorem runChecks_append (cs ds : List BucketCheck) (limiter : RateLimiter) :
    runChecks now (cs ++ ds) limiter =
      if (runChecks now cs limiter).2 then runChecks now ds (runChecks now cs limiter).1
      else ((runChecks now cs limiter).1, false) := by
  induction cs generalizing limiter with
  | nil => exact (if_pos rfl).symm
  | cons c cs ih =>
    rw [List.cons_append, runChecks, runChecks]
    split
    · exact ih _
    · rfl

variable (now) in
theorem runChecks_defaults (cs : List BucketCheck) (limiter : RateLimiter) :
    (runChecks now cs limiter).1.defaultRate = limiter.defaultRate ∧
      (runChecks now cs limiter).1.defaultBurst = limiter.defaultBurst := by
  induction cs generalizing limiter with
  | nil => exact ⟨rfl, rfl⟩
  | cons c cs ih =>
    rw [runChecks]
    split
    · obtain ⟨hrate, hburst⟩ := ih (limiter.check now c).1
      exact ⟨hrate.trans check_defaults.1, hburst.trans check_defaults.2⟩
    · exact check_defaults

theorem bucket_runChecks {name : BucketName} (h : name ∉ cs.map (·.name)) :
    (runChecks now cs limiter).1.bucket name = limiter.bucket name := by
  induction cs generalizing limiter with
  | nil => rfl
  | cons c cs ih =>
    rw [List.map_cons, List.mem_cons, not_or] at h
    have hbucket : (limiter.check now c).1.bucket name = limiter.bucket name := by
      rw [bucket_check, if_neg h.1]
    rw [runChecks]
    split
    · exact (ih h.2).trans hbucket
    · exact hbucket

/-- Checks of different buckets do not get in each other's way. -/
theorem runChecks_snd (hnames : (cs.map (·.name)).Nodup) :
    (runChecks now cs limiter).2 = cs.all fun c ↦ (limiter.check now c).2 := by
  induction cs generalizing limiter with
  | nil => rfl
  | cons c cs ih =>
    obtain ⟨hc, hnames⟩ := List.nodup_cons.1 hnames
    have hothers : (cs.all fun d ↦ ((limiter.check now c).1.check now d).2) =
        cs.all fun d ↦ (limiter.check now d).2 := by
      rw [Bool.eq_iff_iff, List.all_eq_true, List.all_eq_true]
      refine forall₂_congr fun d hd ↦ ?_
      have hne : d.name ≠ c.name := fun heq ↦ hc (List.mem_map.2 ⟨d, hd, heq⟩)
      rw [check_snd, check_snd, found_check_of_ne hne]
    rw [runChecks, List.all_cons]
    split
    · next hpass => rw [ih hnames, hothers, hpass, Bool.true_and]
    · next hfail => rw [Bool.eq_false_iff.2 hfail, Bool.false_and]

/-- **What a rejected request consumes**: one token of each bucket that is checked before the one
that rejects it, and nothing else. -/
theorem runChecks_rejects (h : limiter.Sound) (hnames : (cs.map (·.name)).Nodup)
    (hreject : (runChecks now cs limiter).2 = false) :
    ∃ before c after, cs = before ++ c :: after ∧ limiter.tokensFor now c = 0 ∧
      (∀ d ∈ before, 0 < limiter.tokensFor now d ∧
        (runChecks now cs limiter).1.tokensFor now d + 1 = limiter.tokensFor now d) ∧
        ∀ d ∉ before, limiter.tokensFor now d ≤ (runChecks now cs limiter).1.tokensFor now d := by
  induction cs generalizing limiter with
  | nil => cases hreject
  | cons c cs ih =>
    obtain ⟨hc, hnames⟩ := List.nodup_cons.1 hnames
    rw [runChecks] at hreject ⊢
    split at hreject
    · next hpass =>
      rw [if_pos hpass]
      have hpos := check_snd_iff.1 hpass
      obtain ⟨before, c', after, rfl, hzero, hbefore, hothers⟩ :=
        ih (h.check now c) hnames hreject
      -- the checks that follow are of other buckets
      have hother : ∀ d ∈ before ++ c' :: after,
          (limiter.check now c).1.tokensFor now d = limiter.tokensFor now d := by
        intro d hd
        have hne : d.name ≠ c.name := fun heq ↦ hc (List.mem_map.2 ⟨d, hd, heq⟩)
        rw [tokensFor, tokensFor, found_check_of_ne hne]
      have hkept :
          (runChecks now (before ++ c' :: after) (limiter.check now c).1).1.tokensFor now c =
            (limiter.check now c).1.tokensFor now c := by
        rw [tokensFor, tokensFor, found_of_bucket_eq (bucket_runChecks hc)]
      refine ⟨c :: before, c', after, rfl, ?_, fun d hd ↦ ?_, fun d hd ↦ ?_⟩
      · rw [← hother c' (by simp)]
        exact hzero
      · rcases List.mem_cons.1 hd with rfl | hd
        · refine ⟨hpos, ?_⟩
          rw [hkept, tokensFor_check_self, if_pos hpos]
          exact Nat.sub_add_cancel hpos
        · rw [← hother d (List.mem_append_left _ hd)]
          exact hbefore d hd
      · rw [List.mem_cons, not_or] at hd
        exact (tokensFor_check_of_ne h hd.1).trans (hothers d hd.2)
    · next hfail =>
      rw [if_neg hfail]
      have hzero : limiter.tokensFor now c = 0 :=
        Nat.eq_zero_of_not_pos fun hpos ↦ hfail (check_snd_iff.2 hpos)
      refine ⟨[], c, cs, rfl, hzero, fun d hd ↦ (by cases hd), fun d _ ↦ ?_⟩
      rcases eq_or_ne d c with rfl | hne
      · rw [hzero]
        exact Nat.zero_le _
      · exact tokensFor_check_of_ne h hne

end RateLimiter

end Himadri
