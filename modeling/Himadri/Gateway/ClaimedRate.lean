import Mathlib.Tactic.NormNum
import Himadri.Auth.Jwt
import Himadri.Gateway.RateLimits

/-!
# The rate a token claims

`rate_limit_rpm` of a token becomes an override of the key's bucket: one minute of requests at once,
and a whole number of requests a second, rounded up. What the bucket admits is then bounded by that
rate (`allowance_allowN`), whatever the other buckets answer and whoever else is served in between.
-/

namespace Himadri

namespace TokenBucket

variable {b : TokenBucket} {now t : ℕ}

/-- What a bucket can still grant up to a time, in millionths of a token. -/
def allowance (b : TokenBucket) (t : ℕ) : ℕ :=
  b.tokens * 1000000 + (t - b.lastRefill) * b.rate

/-- A refill pays for its credit with the time it moves `last_refill` over. -/
theorem allowance_refill (hlast : b.lastRefill ≤ now) (hnow : now ≤ t) :
    (b.refill now).allowance t ≤ b.allowance t := by
  rw [refill]
  split
  · exact le_rfl
  · have htokens := Nat.mul_le_mul_right 1000000
      (addTokens_tokens_le (b := { b with lastRefill := now }) (credit b.rate b.lastRefill now))
    have hpaid := credit_mul_le b.rate b.lastRefill now
    have hsplit : t - b.lastRefill = (now - b.lastRefill) + (t - now) := by omega
    rw [Nat.add_mul] at htokens
    calc _ ≤ b.tokens * 1000000 + credit b.rate b.lastRefill now * 1000000 + (t - now) * b.rate :=
          Nat.add_le_add_right htokens _
      _ ≤ b.tokens * 1000000 + (now - b.lastRefill) * b.rate + (t - now) * b.rate :=
          Nat.add_le_add_right (Nat.add_le_add_left hpaid _) _
      _ = b.allowance t := by rw [allowance, hsplit, Nat.add_mul, Nat.add_assoc]

/-- A call that is granted a token takes a token off what can still be granted. -/
theorem allowance_allowN (hlast : b.lastRefill ≤ now) (hnow : now ≤ t) :
    (b.allowN now 1).2.toNat * 1000000 + (b.allowN now 1).1.allowance t ≤
      b.allowance t := by
  refine le_trans ?_ (allowance_refill hlast hnow)
  rw [allowN]
  rcases htake : (b.refill now).takeTokens 1 with - | b'
  · simp
  · obtain ⟨htokens, rfl⟩ := takeTokens_eq_some htake
    simp only [allowance, Bool.toNat_true] at htokens ⊢
    omega

theorem allowN_lastRefill_le (hlast : b.lastRefill ≤ now) :
    (b.allowN now 1).1.lastRefill ≤ now := by
  rw [(allowN_fixed b now 1).2.2, refill_lastRefill]
  split
  · exact hlast
  · exact le_rfl

end TokenBucket

/-! ### Requests of a token -/

/-- A request as `check_rate_limits` meets it. -/
structure LimitedRequest where
  now : ℕ
  config : Config
  auth : Option AuthContext

/-- Where the request is of the key, it carries a token that claims `rpm` requests a minute. -/
def LimitedRequest.Claims (sub : String) (rpm : ℕ) (r : LimitedRequest) : Prop :=
  ∀ ctx ∈ r.auth, ctx.keyId = some sub →
    ∃ claims : JwtClaims, claims.sub = sub ∧ claims.rateLimitRpm = some rpm ∧
      ctx = claims.intoAuthContext

namespace RateLimiter

/-- The name of a key's bucket. -/
def keyBucket (sub : String) : BucketName := .entity ("key" ++ ":" ++ sub)

variable (limiter : RateLimiter) (sub : String)

/-- The request is of the key, and the key's bucket is asked and admits it. -/
def keyAdmits (r : LimitedRequest) : Bool :=
  match r.auth with
  | none => false
  | some ctx =>
    decide (ctx.keyId = some sub) && r.config.rateLimit.enabled && (limiter.checkGlobal r.now).2 &&
      ((limiter.checkGlobal r.now).1.checkKeyOf r.now ctx).2

/-- When requests of the key are admitted by its bucket, of requests made one after another. -/
def admissions : RateLimiter → List LimitedRequest → List ℕ
  | _, [] => []
  | limiter, r :: rest =>
    (if limiter.keyAdmits sub r then [r.now] else []) ++
      admissions (limiter.checkRateLimits r.now r.config r.auth).1 rest

/-- The check a token's `rate_limit_rpm` makes of the key's bucket. -/
def claimedCheck (rpm : ℕ) : BucketCheck := ⟨keyBucket sub, (rpm + 59) / 60, rpm⟩

variable {limiter sub} {rpm : ℕ} {config : Config} {now : ℕ}

theorem bucket_checkOrgOf (ctx : AuthContext) :
    (limiter.checkOrgOf now config ctx).1.bucket (keyBucket sub) =
      limiter.bucket (keyBucket sub) := by
  rw [checkOrgOf_eq]
  refine bucket_runChecks fun hmem ↦ ?_
  obtain ⟨c, hc, hname⟩ := List.mem_map.1 hmem
  obtain ⟨orgId, horg⟩ := mem_orgChecks hc
  exact keyName_ne_orgName sub orgId (BucketName.entity.inj (hname.symm.trans horg))

/-- The key's bucket is checked as the token claims. -/
theorem checkKeyOf_claims {ctx : AuthContext} (hkey : ctx.keyId = some sub)
    (h : ∃ claims : JwtClaims, claims.sub = sub ∧ claims.rateLimitRpm = some rpm ∧
      ctx = claims.intoAuthContext) :
    limiter.checkKeyOf now ctx = limiter.check now (claimedCheck sub rpm) := by
  obtain ⟨claims, -, hrpm, rfl⟩ := h
  rw [checkKeyOf, hkey, JwtClaims.intoAuthContext, hrpm]
  rfl

theorem keyBucket_injective : Function.Injective keyBucket := fun _ _ h ↦
  String.append_right_inj _ |>.1 (BucketName.entity.inj h)

/-- The check of another key. -/
theorem bucket_checkKeyOf_of_ne {ctx : AuthContext} (hkey : ctx.keyId ≠ some sub) :
    (limiter.checkKeyOf now ctx).1.bucket (keyBucket sub) = limiter.bucket (keyBucket sub) := by
  rw [checkKeyOf]
  rcases hid : ctx.keyId with - | keyId
  · rfl
  · have hne : keyBucket sub ≠ keyBucket keyId := fun heq ↦
      hkey (hid.trans (congrArg some (keyBucket_injective heq).symm))
    exact (bucket_check (c := limiter.entityCheck "key" keyId
      (ctx.rateLimitOverride.bind (·.requestsPerSecond))
      (ctx.rateLimitOverride.bind (·.burstSize))) (keyBucket sub)).trans (if_neg hne)

/-- What a request of an enabled limit does to the key's bucket behind the global one. -/
theorem bucket_checkRateLimits_some {ctx : AuthContext} (henabled : config.rateLimit.enabled = true)
    (hglobal : (limiter.checkGlobal now).2 = true) :
    (limiter.checkRateLimits now config (some ctx)).1.bucket (keyBucket sub) =
      ((limiter.checkGlobal now).1.checkKeyOf now ctx).1.bucket (keyBucket sub) := by
  rw [checkRateLimits, henabled, Bool.not_true, if_neg Bool.false_ne_true]
  rcases hpassed : limiter.checkGlobal now with ⟨l₁, passed⟩
  obtain rfl : passed = true := by rwa [hpassed] at hglobal
  dsimp only
  rcases hchecked : l₁.checkKeyOf now ctx with ⟨l₂, - | -⟩
  · rfl
  · have horg : (l₂.checkOrgOf now config ctx).1.bucket (keyBucket sub) =
        l₂.bucket (keyBucket sub) := bucket_checkOrgOf ctx
    dsimp only
    rcases hlast : l₂.checkOrgOf now config ctx with ⟨l₃, - | -⟩
    · rwa [hlast] at horg
    · rwa [hlast] at horg

/-- A request leaves the key's bucket, or is of the key and makes the claimed check of it. -/
theorem bucket_checkRateLimits {r : LimitedRequest} (hr : r.Claims sub rpm) :
    (limiter.keyAdmits sub r = false ∧
      (limiter.checkRateLimits r.now r.config r.auth).1.bucket (keyBucket sub) =
        limiter.bucket (keyBucket sub)) ∨
      limiter.keyAdmits sub r =
        ((limiter.found r.now (claimedCheck sub rpm)).allowN r.now 1).2 ∧
        (limiter.checkRateLimits r.now r.config r.auth).1.bucket (keyBucket sub) =
          some ((limiter.found r.now (claimedCheck sub rpm)).allowN r.now 1).1 := by
  obtain ⟨now, config, auth⟩ := r
  dsimp only
  have hbucket : (limiter.checkGlobal now).1.bucket (keyBucket sub) =
      limiter.bucket (keyBucket sub) := rfl
  rcases henabled : config.rateLimit.enabled with - | -
  · refine .inl ⟨?_, ?_⟩
    · rw [keyAdmits, henabled]
      rcases auth with - | ctx <;> simp
    · rw [checkRateLimits, henabled]
      rfl
  rcases hglobal : (limiter.checkGlobal now).2 with - | -
  · refine .inl ⟨?_, ?_⟩
    · rw [keyAdmits, hglobal]
      rcases auth with - | ctx <;> simp
    · rw [checkRateLimits, henabled, Bool.not_true, if_neg Bool.false_ne_true]
      rcases hpassed : limiter.checkGlobal now with ⟨l₁, passed⟩
      rw [hpassed] at hbucket hglobal
      obtain rfl : passed = false := hglobal
      exact hbucket
  rcases auth with - | ctx
  · refine .inl ⟨rfl, ?_⟩
    rw [checkRateLimits, henabled, Bool.not_true, if_neg Bool.false_ne_true]
    rcases hpassed : limiter.checkGlobal now with ⟨l₁, passed⟩
    rw [hpassed] at hbucket hglobal
    obtain rfl : passed = true := hglobal
    exact hbucket
  rw [bucket_checkRateLimits_some henabled hglobal, keyAdmits]
  dsimp only
  rw [henabled, hglobal, Bool.and_true, Bool.and_true]
  by_cases hkey : ctx.keyId = some sub
  · rw [checkKeyOf_claims hkey (hr ctx rfl hkey), decide_eq_true hkey, Bool.true_and, check_snd,
      bucket_check, if_pos (show keyBucket sub = (claimedCheck sub rpm).name from rfl),
      found_of_bucket_eq (d := claimedCheck sub rpm) hbucket]
    exact .inr ⟨rfl, rfl⟩
  · rw [bucket_checkKeyOf_of_ne hkey, decide_eq_false hkey, Bool.false_and]
    exact .inl ⟨rfl, hbucket⟩

/-! ### The bound -/

/-- The key's bucket is the claimed one, and `t` has not passed before it was last credited. -/
def ClaimedAt (limiter : RateLimiter) (sub : String) (rpm t : ℕ) : Prop :=
  ∀ b, limiter.bucket (keyBucket sub) = some b →
    b.rate = (rpm + 59) / 60 ∧ b.capacity = rpm ∧ b.lastRefill ≤ t

/-- What the key's bucket, or else a new one, can still grant from `t` on. -/
def keyAllowance (limiter : RateLimiter) (sub : String) (rpm t deadline : ℕ) : ℕ :=
  ((limiter.bucket (keyBucket sub)).getD (.new ((rpm + 59) / 60) rpm t)).allowance deadline

theorem found_claimedCheck {t : ℕ} (h : limiter.ClaimedAt sub rpm t) (hnow : t ≤ now) :
    (limiter.found now (claimedCheck sub rpm)).lastRefill ≤ now ∧
      ∀ deadline, (limiter.found now (claimedCheck sub rpm)).allowance deadline ≤
        limiter.keyAllowance sub rpm t deadline := by
  simp only [keyAllowance]
  rcases hb : limiter.bucket (keyBucket sub) with - | b
  · have hfound : limiter.found now (claimedCheck sub rpm) = .new ((rpm + 59) / 60) rpm now := by
      rw [found, show limiter.bucket (claimedCheck sub rpm).name = none from hb]
      rfl
    rw [hfound]
    refine ⟨le_rfl, fun deadline ↦ Nat.add_le_add_left (Nat.mul_le_mul_right _ ?_) _⟩
    exact Nat.sub_le_sub_left hnow deadline
  · obtain ⟨hrate, hcapacity, hlast⟩ := h b hb
    have hfound : limiter.found now (claimedCheck sub rpm) = b := by
      rw [found, show limiter.bucket (claimedCheck sub rpm).name = some b from hb]
      exact if_pos ⟨hrate, hcapacity⟩
    rw [hfound]
    exact ⟨hlast.trans hnow, fun _ ↦ le_rfl⟩

/-- A request keeps the key's bucket as claimed, and is admitted at its expense. -/
theorem allowance_request {t deadline : ℕ} {r : LimitedRequest} (h : limiter.ClaimedAt sub rpm t)
    (hr : r.Claims sub rpm) (hnow : t ≤ r.now) (hdeadline : r.now ≤ deadline) :
    (limiter.checkRateLimits r.now r.config r.auth).1.ClaimedAt sub rpm r.now ∧
      (limiter.keyAdmits sub r).toNat * 1000000 +
          (limiter.checkRateLimits r.now r.config r.auth).1.keyAllowance sub rpm r.now deadline ≤
        limiter.keyAllowance sub rpm t deadline := by
  obtain ⟨hlast, hallowance⟩ := found_claimedCheck h hnow
  rcases bucket_checkRateLimits hr with ⟨hadmits, hbucket⟩ | ⟨hadmits, hbucket⟩
  · refine ⟨fun b hb ↦ ?_, ?_⟩
    · obtain ⟨hrate, hcapacity, hlast⟩ := h b (hbucket ▸ hb)
      exact ⟨hrate, hcapacity, hlast.trans hnow⟩
    · rw [hadmits, Bool.toNat_false, Nat.zero_mul, Nat.zero_add, keyAllowance, hbucket,
        keyAllowance]
      rcases limiter.bucket (keyBucket sub) with - | b
      · exact Nat.add_le_add_left (Nat.mul_le_mul_right _ (Nat.sub_le_sub_left hnow deadline)) _
      · exact le_rfl
  · obtain ⟨hrate, hcapacity⟩ := found_fixed limiter r.now (claimedCheck sub rpm)
    obtain ⟨hrate', hcapacity', -⟩ :=
      TokenBucket.allowN_fixed (limiter.found r.now (claimedCheck sub rpm)) r.now 1
    refine ⟨fun b hb ↦ ?_, ?_⟩
    · obtain rfl := Option.some.inj (hbucket.symm.trans hb)
      exact ⟨hrate'.trans hrate, hcapacity'.trans hcapacity,
        TokenBucket.allowN_lastRefill_le hlast⟩
    · rw [hadmits, keyAllowance, hbucket]
      exact (TokenBucket.allowance_allowN hlast hdeadline).trans (hallowance deadline)

theorem admissions_sublist (requests : List LimitedRequest) :
    (limiter.admissions sub requests).Sublist (requests.map (·.now)) := by
  induction requests generalizing limiter with
  | nil => exact List.Sublist.refl []
  | cons r rest ih =>
    rw [admissions, List.map_cons]
    split_ifs
    · exact ih.cons_cons r.now
    · exact ih.cons r.now

/-- What is admitted up to a time is paid for by what can be granted up to it. -/
theorem admissions_le {t deadline : ℕ} {requests : List LimitedRequest}
    (h : limiter.ClaimedAt sub rpm t) (hrequests : ∀ r ∈ requests, r.Claims sub rpm)
    (htimes : (t :: requests.map (·.now)).Pairwise (· ≤ ·)) :
    ((limiter.admissions sub requests).filter (· ≤ deadline)).length * 1000000 ≤
      limiter.keyAllowance sub rpm t deadline := by
  induction requests generalizing limiter t with
  | nil => simp [admissions]
  | cons r rest ih =>
    obtain ⟨hnow, hrest⟩ := List.pairwise_cons.1 htimes
    by_cases hdeadline : r.now ≤ deadline
    · obtain ⟨hclaimed, hpaid⟩ := allowance_request h (hrequests r List.mem_cons_self)
        (hnow _ List.mem_cons_self) hdeadline
      have hlater := ih hclaimed (fun r' hr' ↦ hrequests r' (List.mem_cons_of_mem _ hr')) hrest
      rw [admissions, List.filter_append, List.length_append, Nat.add_mul]
      have hadmits : ((if limiter.keyAdmits sub r then [r.now] else []).filter
          (· ≤ deadline)).length = (limiter.keyAdmits sub r).toNat := by
        rcases limiter.keyAdmits sub r with - | - <;> simp [hdeadline]
      rw [hadmits]
      exact (Nat.add_le_add_left hlater _).trans hpaid
    -- the time is over, for this request and for those behind it
    · have hover : (limiter.admissions sub (r :: rest)).filter (· ≤ deadline) = [] := by
        refine List.filter_eq_nil_iff.2 fun x hx ↦ ?_
        rw [decide_eq_true_iff]
        rcases List.mem_cons.1 ((admissions_sublist (r :: rest)).subset hx) with rfl | hx
        · exact hdeadline
        · exact fun hle ↦ hdeadline (((List.pairwise_cons.1 hrest).1 x hx).trans hle)
      rw [hover, List.length_nil, Nat.zero_mul]
      exact Nat.zero_le _

/-- Of any requests, made one after another from `t` on, the bucket that is built for the token's
key admits at most the claimed minute's worth and the claimed rate, rounded up to a whole number a
second, for the microseconds `d`. -/
theorem claimed_rate_admits {t : ℕ} {requests : List LimitedRequest} (d : ℕ)
    (hnew : limiter.bucket (keyBucket sub) = none)
    (hrequests : ∀ r ∈ requests, r.Claims sub rpm)
    (htimes : (t :: requests.map (·.now)).Pairwise (· ≤ ·)) :
    ((limiter.admissions sub requests).filter (· ≤ t + d)).length ≤
      rpm + (rpm + 59) / 60 * d / 1000000 := by
  have hclaimed : limiter.ClaimedAt sub rpm t := by
    intro b hb
    rw [hnew] at hb
    cases hb
  have hbound : ((limiter.admissions sub requests).filter (· ≤ t + d)).length * 1000000 ≤
      limiter.keyAllowance sub rpm t (t + d) := admissions_le hclaimed hrequests htimes
  have hallowance : limiter.keyAllowance sub rpm t (t + d) =
      rpm * 1000000 + (rpm + 59) / 60 * d := by
    rw [keyAllowance, hnew, Nat.mul_comm _ d]
    show rpm * 1000000 + (t + d - t) * ((rpm + 59) / 60) = _
    rw [Nat.add_sub_cancel_left]
  rw [hallowance] at hbound
  rw [← Nat.mul_add_div (by decide), Nat.mul_comm 1000000, Nat.le_div_iff_mul_le (by decide)]
  exact hbound

/-- A token of one request a minute. -/
def oneAMinute : JwtClaims where
  sub := "alice"
  iss := ""
  aud := []
  exp := 0
  nbf := none
  scope := none
  orgId := none
  teamId := none
  roles := none
  rateLimitRpm := some 1
  budgetLimitUsd := none
  custom := []

/-- The default configuration with its rate limits on. -/
def limitsOn : Config :=
  { Config.default with rateLimit := { RateLimitConfig.default with enabled := true } }

/-- Its requests at these times. -/
def requestsAt (times : List ℕ) : List LimitedRequest :=
  times.map (⟨·, limitsOn, some oneAMinute.intoAuthContext⟩)

theorem claims_requestsAt (times : List ℕ) : ∀ r ∈ requestsAt times, r.Claims "alice" 1 :=
  List.forall_mem_map.2 fun _ _ _ hctx _ ↦ ⟨oneAMinute, rfl, rfl, (Option.some.inj hctx).symm⟩

/-- Requests of a minute, a second apart. -/
theorem claimed_rate_admits_minute :
    (((new 100 200).admissions "alice" (requestsAt [0, 1000000, 2000000])).filter
      (· ≤ 0 + 60000000)).length ≤ 61 :=
  claimed_rate_admits 60000000 rfl (claims_requestsAt _) (by decide)

/-- Three requests of such a token are admitted within two seconds. -/
theorem oneAMinute_admits_three :
    ¬∀ (limiter : RateLimiter) (sub : String) (rpm t d : ℕ) (requests : List LimitedRequest),
      1 ≤ rpm → limiter.bucket (keyBucket sub) = none →
        (∀ r ∈ requests, r.config.rateLimit.enabled = true ∧ r.Claims sub rpm) →
        (t :: requests.map (·.now)).Pairwise (· ≤ ·) →
          (((limiter.admissions sub requests).filter (· ≤ t + d)).length : ℚ) ≤
            rpm + rpm * (d / 1000000) / 60 + 1 := by
  intro h
  have henabled : ∀ r ∈ requestsAt [0, 1000000, 2000000], r.config.rateLimit.enabled = true :=
    List.forall_mem_map.2 fun _ _ ↦ rfl
  have hadmitted := h (new 100 200) "alice" 1 0 2000000 (requestsAt [0, 1000000, 2000000]) le_rfl
    rfl (fun r hr ↦ ⟨henabled r hr, claims_requestsAt _ r hr⟩) (by decide)
  have hthree : (((new 100 200).admissions "alice" (requestsAt [0, 1000000, 2000000])).filter
      (· ≤ 0 + 2000000)).length = 3 := by
    decide +kernel
  rw [hthree] at hadmitted
  norm_num at hadmitted

end RateLimiter

end Himadri
