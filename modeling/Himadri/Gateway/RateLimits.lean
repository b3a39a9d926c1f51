import Himadri.Gateway.Policy
import Himadri.RateLimit.Checks

/-!
# The rate limits of a request

`check_rate_limits` with the buckets it consumes from: the global one, the key's and the
organisation's, in this order and each only where the ones before it had a token. The rate-limit
plugin checks its counters in the same way.
-/

namespace Himadri

namespace RateLimiter

section Checks

variable (limiter : RateLimiter) (now : ℕ) (config : Config)

/-- The bucket of the key. -/
def checkKeyOf (ctx : AuthContext) : RateLimiter × Bool :=
  match ctx.keyId with
  | none => (limiter, true)
  | some keyId =>
    limiter.checkKey now keyId (ctx.rateLimitOverride.bind (·.requestsPerSecond))
      (ctx.rateLimitOverride.bind (·.burstSize))

/-- The bucket of the organisation, where its section is enabled. -/
def checkOrgOf (ctx : AuthContext) : RateLimiter × Bool :=
  match ctx.orgId with
  | none => (limiter, true)
  | some orgId =>
    match (config.orgs.get orgId).bind (·.rateLimit) with
    | none => (limiter, true)
    | some limit =>
      if limit.enabled then
        limiter.checkOrg now orgId (some limit.requestsPerSecond) (some limit.burstSize)
      else (limiter, true)

/-- `Gateway::check_rate_limits`. -/
def checkRateLimits (auth : Option AuthContext) : RateLimiter × Except GatewayError Unit :=
  if !config.rateLimit.enabled then (limiter, .ok ())
  else
    match limiter.checkGlobal now with
    | (limiter, false) => (limiter, .error (.rateLimited 1))
    | (limiter, true) =>
      match auth with
      | none => (limiter, .ok ())
      | some ctx =>
        match limiter.checkKeyOf now ctx with
        | (limiter, false) => (limiter, .error (.rateLimited 1))
        | (limiter, true) =>
          match limiter.checkOrgOf now config ctx with
          | (limiter, false) => (limiter, .error (.rateLimited 1))
          | (limiter, true) => (limiter, .ok ())

/-! ### The checks of a request -/

/-- The check of the key. -/
def keyChecks (ctx : AuthContext) : List BucketCheck :=
  (ctx.keyId.map fun keyId ↦
    limiter.entityCheck "key" keyId (ctx.rateLimitOverride.bind (·.requestsPerSecond))
      (ctx.rateLimitOverride.bind (·.burstSize))).toList

/-- The check of the organisation. -/
def orgChecks (ctx : AuthContext) : List BucketCheck :=
  (ctx.orgId.bind fun orgId ↦
    (((config.orgs.get orgId).bind (·.rateLimit)).filter (·.enabled)).map fun limit ↦
      limiter.entityCheck "org" orgId (some limit.requestsPerSecond)
        (some limit.burstSize)).toList

/-- The checks of a request, in their order. -/
def checksOf (auth : Option AuthContext) : List BucketCheck :=
  if config.rateLimit.enabled then
    limiter.globalCheck ::
      (auth.toList.flatMap fun ctx ↦ limiter.keyChecks ctx ++ limiter.orgChecks config ctx)
  else []

/-- What the checks answer a request, on buckets that nothing else changes. -/
def answers : LimiterAnswers where
  checkGlobal := (limiter.checkGlobal now).2
  checkKey keyId rate burst := (limiter.checkKey now keyId rate burst).2
  checkOrg orgId rate burst := (limiter.checkOrg now orgId rate burst).2

end Checks

variable {limiter : RateLimiter} {now : ℕ} {config : Config} {auth : Option AuthContext}

/-- Checks do not change the defaults the parameters of later ones are taken from. -/
theorem entityCheck_runChecks (cs : List BucketCheck) :
    (runChecks now cs limiter).1.entityCheck = limiter.entityCheck := by
  obtain ⟨hrate, hburst⟩ := runChecks_defaults now cs limiter
  funext scope id rate burst
  rw [entityCheck, entityCheck, hrate, hburst]

theorem checkKeyOf_eq (ctx : AuthContext) :
    limiter.checkKeyOf now ctx = runChecks now (limiter.keyChecks ctx) limiter := by
  rw [checkKeyOf, keyChecks]
  rcases ctx.keyId with - | keyId
  · rfl
  · rw [Option.map_some, Option.toList_some, runChecks_singleton]
    rfl

theorem checkOrgOf_eq (ctx : AuthContext) :
    limiter.checkOrgOf now config ctx = runChecks now (limiter.orgChecks config ctx) limiter := by
  rw [checkOrgOf, orgChecks]
  rcases ctx.orgId with - | orgId
  · rfl
  · dsimp only [Option.bind_some]
    rcases (config.orgs.get orgId).bind (·.rateLimit) with - | limit
    · rfl
    · dsimp only
      rw [Option.filter_some]
      split
      · rw [Option.map_some, Option.toList_some, runChecks_singleton]
        rfl
      · rfl

/-- The request is checked against its buckets one after another. -/
theorem checkRateLimits_eq : limiter.checkRateLimits now config auth =
    ((runChecks now (limiter.checksOf config auth) limiter).1,
      if (runChecks now (limiter.checksOf config auth) limiter).2 then .ok ()
      else .error (.rateLimited 1)) := by
  rw [checkRateLimits, checksOf]
  by_cases henabled : config.rateLimit.enabled
  · rw [if_pos henabled, if_neg (by simp [henabled]), ← List.singleton_append, runChecks_append,
      runChecks_singleton, ← checkGlobal_eq]
    rcases hglobal : limiter.checkGlobal now with ⟨l₁, - | -⟩
    · rfl
    · rcases auth with - | ctx
      · rfl
      · have hl₁ : l₁ = (runChecks now [limiter.globalCheck] limiter).1 := by
          rw [runChecks_singleton, ← checkGlobal_eq, hglobal]
        have hentity : l₁.entityCheck = limiter.entityCheck := by
          rw [hl₁, entityCheck_runChecks]
        have hkey : l₁.keyChecks ctx = limiter.keyChecks ctx := by
          rw [keyChecks, keyChecks, hentity]
        simp only [Option.toList_some, List.flatMap_cons, List.flatMap_nil, List.append_nil,
          if_true]
        rw [runChecks_append, ← hkey, ← checkKeyOf_eq]
        rcases hchecked : l₁.checkKeyOf now ctx with ⟨l₂, - | -⟩
        · rfl
        · have hl₂ : l₂ = (runChecks now (l₁.keyChecks ctx) l₁).1 := by
            rw [← checkKeyOf_eq, hchecked]
          have horg : l₂.orgChecks config ctx = limiter.orgChecks config ctx := by
            rw [orgChecks, orgChecks, hl₂, entityCheck_runChecks, hentity]
          simp only [if_true]
          rw [← horg, ← checkOrgOf_eq]
          rcases l₂.checkOrgOf now config ctx with ⟨l₃, - | -⟩ <;> rfl
  · rw [if_neg henabled, if_pos (by simp [henabled])]
    rfl

theorem keyName_ne_orgName (keyId orgId : String) :
    "key" ++ ":" ++ keyId ≠ "org" ++ ":" ++ orgId := by
  intro h
  have hchars := congrArg String.toList h
  simp [String.toList_append] at hchars

theorem mem_keyChecks {ctx : AuthContext} {c : BucketCheck} (h : c ∈ limiter.keyChecks ctx) :
    ∃ keyId, c.name = .entity ("key" ++ ":" ++ keyId) := by
  obtain ⟨keyId, -, rfl⟩ := Option.map_eq_some_iff.1 (Option.mem_toList.1 h)
  exact ⟨keyId, rfl⟩

theorem mem_orgChecks {ctx : AuthContext} {c : BucketCheck}
    (h : c ∈ limiter.orgChecks config ctx) : ∃ orgId, c.name = .entity ("org" ++ ":" ++ orgId) := by
  obtain ⟨orgId, -, h⟩ := Option.bind_eq_some_iff.1 (Option.mem_toList.1 h)
  obtain ⟨limit, -, rfl⟩ := Option.map_eq_some_iff.1 h
  exact ⟨orgId, rfl⟩

/-- The buckets of a request are different ones. -/
theorem nodup_checksOf : ((limiter.checksOf config auth).map (·.name)).Nodup := by
  rw [checksOf]
  split
  · rcases auth with - | ctx
    · exact List.nodup_singleton _
    · have hkey : ((limiter.keyChecks ctx).map (·.name)).Nodup := by
        rw [keyChecks]
        rcases ctx.keyId with - | keyId
        · exact List.nodup_nil
        · exact List.nodup_singleton _
      have horg : ((limiter.orgChecks config ctx).map (·.name)).Nodup := by
        rw [orgChecks]
        rcases ctx.orgId.bind _ with - | c
        · exact List.nodup_nil
        · exact List.nodup_singleton _
      rw [Option.toList_some, List.flatMap_singleton, List.map_cons, List.map_append,
        List.nodup_cons, List.nodup_append']
      refine ⟨fun hglobal ↦ ?_, hkey, horg, fun name hname hname' ↦ ?_⟩
      · rcases List.mem_append.1 hglobal with h | h
        · obtain ⟨c, hc, hname⟩ := List.mem_map.1 h
          obtain ⟨keyId, heq⟩ := mem_keyChecks hc
          cases heq.symm.trans hname
        · obtain ⟨c, hc, hname⟩ := List.mem_map.1 h
          obtain ⟨orgId, heq⟩ := mem_orgChecks hc
          cases heq.symm.trans hname
      · obtain ⟨c, hc, rfl⟩ := List.mem_map.1 hname
        obtain ⟨d, hd, heq⟩ := List.mem_map.1 hname'
        obtain ⟨keyId, hkeyId⟩ := mem_keyChecks hc
        obtain ⟨orgId, horgId⟩ := mem_orgChecks hd
        have hsame : BucketName.entity ("key" ++ ":" ++ keyId) =
            .entity ("org" ++ ":" ++ orgId) := (hkeyId.symm.trans heq.symm).trans horgId
        exact keyName_ne_orgName keyId orgId (BucketName.entity.inj hsame)
  · exact List.nodup_nil

/-- The answers the guards of a request are given are those of its checks. -/
theorem checkRateLimits_snd : (limiter.checkRateLimits now config auth).2 =
    Himadri.checkRateLimits (limiter.answers now) config auth := by
  rw [checkRateLimits_eq, runChecks_snd nodup_checksOf, checksOf]
  unfold Himadri.checkRateLimits
  by_cases henabled : config.rateLimit.enabled
  · simp only [henabled, Bool.not_true, Bool.false_eq_true, if_true, if_false, List.all_cons]
    have hglobal : (limiter.check now limiter.globalCheck).2 = (limiter.answers now).checkGlobal :=
      rfl
    rw [hglobal]
    rcases (limiter.answers now).checkGlobal with - | -
    · rfl
    · rcases auth with - | ctx
      · rfl
      · have hkey : ((limiter.keyChecks ctx).all fun c ↦ (limiter.check now c).2) =
            admitsKey (limiter.answers now) ctx := by
          rw [keyChecks, admitsKey]
          rcases ctx.keyId with - | keyId
          · rfl
          · exact Bool.and_true _
        have horg : ((limiter.orgChecks config ctx).all fun c ↦ (limiter.check now c).2) =
            admitsOrg (limiter.answers now) config ctx := by
          rw [orgChecks, admitsOrg]
          rcases ctx.orgId with - | orgId
          · rfl
          · dsimp only [Option.bind_some]
            rcases (config.orgs.get orgId).bind (·.rateLimit) with - | limit
            · rfl
            · rw [Option.filter_some]
              dsimp only
              by_cases hlimit : limit.enabled
              · rw [if_pos hlimit, hlimit]
                exact Bool.and_true _
              · rw [if_neg hlimit, Bool.eq_false_iff.2 hlimit]
                rfl
        rw [Option.toList_some, List.flatMap_singleton, List.all_append, hkey, horg]
        rfl
  · simp only [henabled, Bool.not_false, if_true, Bool.false_eq_true, if_false, List.all_nil]

/-! ### What a rejected request consumes -/

/-- No check at `now` finds fewer tokens in `limiter'` than in `limiter`. -/
def HoldsAsMuch (now : ℕ) (limiter limiter' : RateLimiter) : Prop :=
  ∀ c, limiter.tokensFor now c ≤ limiter'.tokensFor now c

theorem checkRateLimits_error {e : GatewayError}
    (h : (limiter.checkRateLimits now config auth).2 = .error e) :
    config.rateLimit.enabled ∧
      (runChecks now (limiter.checksOf config auth) limiter).2 = false := by
  rw [checkRateLimits_eq] at h
  dsimp only at h
  split at h
  · cases h
  · next hchecks =>
    refine ⟨?_, Bool.eq_false_iff.2 hchecks⟩
    by_contra henabled
    rw [checksOf, if_neg henabled] at hchecks
    exact hchecks rfl

/-- A rejected request consumes nothing exactly when the first bucket already rejects it. -/
theorem holdsAsMuch_iff (hsound : limiter.Sound) {e : GatewayError}
    (h : (limiter.checkRateLimits now config auth).2 = .error e) :
    HoldsAsMuch now limiter (limiter.checkRateLimits now config auth).1 ↔
      limiter.tokensFor now limiter.globalCheck = 0 := by
  obtain ⟨henabled, hreject⟩ := checkRateLimits_error h
  obtain ⟨before, c, after, hchecks, hzero, hbefore, hothers⟩ :=
    runChecks_rejects hsound nodup_checksOf hreject
  rw [checkRateLimits_eq]
  have hhead : ∃ rest, before ++ c :: after = limiter.globalCheck :: rest := by
    rw [← hchecks, checksOf, if_pos henabled]
    exact ⟨_, rfl⟩
  obtain ⟨rest, hhead⟩ := hhead
  rcases before with - | ⟨d, before⟩
  · obtain ⟨rfl, -⟩ := List.cons.inj hhead
    exact iff_of_true (fun d ↦ hothers d (by simp)) hzero
  · obtain ⟨rfl, -⟩ := List.cons.inj hhead
    obtain ⟨hpos, hspent⟩ := hbefore _ List.mem_cons_self
    refine iff_of_false (fun hmuch ↦ ?_) hpos.ne'
    have hle : limiter.tokensFor now limiter.globalCheck ≤
        (runChecks now (limiter.checksOf config auth) limiter).1.tokensFor now
          limiter.globalCheck := hmuch limiter.globalCheck
    omega

/-! ### Runs -/

/-- What became of a request: who made it and when, what `check_rate_limits` said, and whether the
global bucket had no token for it. -/
structure Decision where
  auth : Option AuthContext
  now : ℕ
  result : Except GatewayError Unit
  atGlobal : Bool

/-- A request as it came. -/
def Decision.request (decision : Decision) : Option AuthContext × ℕ := (decision.auth, decision.now)

section Run

variable (config : Config)

/-- The decision on a request. -/
def decision (limiter : RateLimiter) (auth : Option AuthContext) (now : ℕ) : Decision where
  auth
  now
  result := (limiter.checkRateLimits now config auth).2
  atGlobal := config.rateLimit.enabled && limiter.tokensFor now limiter.globalCheck == 0

/-- The decisions on requests that come one after another. -/
def decisions : RateLimiter → List (Option AuthContext × ℕ) → List Decision
  | _, [] => []
  | limiter, (auth, now) :: rest =>
    limiter.decision config auth now ::
      decisions (limiter.checkRateLimits now config auth).1 rest

/-- The decisions but for those on somebody's requests that the global bucket rejected. -/
def others (mine : Option AuthContext → Bool) (all : List Decision) : List Decision :=
  all.filter fun decision ↦ !(mine decision.auth && decision.atGlobal)

end Run

/-- Two limiters that decide alike: a global bucket without capacity never has a token, whatever
else is in it. -/
structure Alike (limiter limiter' : RateLimiter) : Prop where
  perEntity : limiter'.perEntity = limiter.perEntity
  defaultRate : limiter'.defaultRate = limiter.defaultRate
  defaultBurst : limiter'.defaultBurst = limiter.defaultBurst
  global : limiter'.global = limiter.global ∨ limiter.defaultBurst = 0

theorem Sound.tokensFor_le (h : limiter.Sound) (c : BucketCheck) :
    limiter.tokensFor now c ≤ c.burst :=
  (TokenBucket.tokens_refill_le (h.found now c)).trans (found_fixed ..).2.le

theorem Sound.runChecks (h : limiter.Sound) (now : ℕ) (cs : List BucketCheck) :
    (runChecks now cs limiter).1.Sound := by
  induction cs generalizing limiter with
  | nil => exact h
  | cons c cs ih =>
    rw [RateLimiter.runChecks]
    split
    · exact ih (h.check now c)
    · exact h.check now c

theorem Sound.checkRateLimits (h : limiter.Sound) (now : ℕ) (config : Config)
    (auth : Option AuthContext) : (limiter.checkRateLimits now config auth).1.Sound := by
  rw [checkRateLimits_eq]
  exact h.runChecks now _

/-- The global bucket rejects: nothing but itself is looked at. -/
theorem checkRateLimits_atGlobal (henabled : config.rateLimit.enabled)
    (hzero : limiter.tokensFor now limiter.globalCheck = 0) :
    limiter.checkRateLimits now config auth =
      ((limiter.check now limiter.globalCheck).1, .error (.rateLimited 1)) := by
  have hfail : (limiter.check now limiter.globalCheck).2 = false := by
    rw [Bool.eq_false_iff]
    intro hpass
    have hpos := check_snd_iff.1 hpass
    omega
  rw [checkRateLimits, if_neg (by simp [henabled]), checkGlobal_eq]
  rcases hcheck : limiter.check now limiter.globalCheck with ⟨l, ok⟩
  rw [hcheck] at hfail
  obtain rfl : ok = false := hfail
  rfl

/-- A bucket with a capacity that has no token is left as it is. -/
theorem bucket_of_empty {c : BucketCheck} (hburst : c.burst ≠ 0)
    (hzero : limiter.tokensFor now c = 0) :
    limiter.bucket c.name = some ((limiter.found now c).allowN now 1).1 := by
  have hnew : ((TokenBucket.new c.rate c.burst now).refill now).tokens ≠ 0 := by
    rw [TokenBucket.refill_new]
    exact hburst
  obtain ⟨-, hcapacity⟩ := found_fixed limiter now c
  have hbucket : limiter.bucket c.name = some (limiter.found now c) := by
    rw [tokensFor, found] at hzero
    rw [found]
    rcases hget : limiter.bucket c.name with - | bucket
    · rw [hget] at hzero
      exact absurd hzero hnew
    · rw [hget] at hzero
      dsimp only at hzero ⊢
      by_cases hparams : bucket.rate = c.rate ∧ bucket.capacity = c.burst
      · rw [if_pos hparams]
      · rw [if_neg hparams] at hzero
        exact absurd hzero hnew
  rw [tokensFor] at hzero
  generalize limiter.found now c = b at hzero hcapacity hbucket
  -- what is due would be there, so nothing is
  have hrefill : b.refill now = b := by
    rw [TokenBucket.refill]
    refine if_pos (by_contra fun hdue ↦ ?_)
    rw [TokenBucket.refill, if_neg hdue] at hzero
    simp only [TokenBucket.addTokens] at hzero
    have hword : UInt64.size - 1 ≠ 0 := by decide
    generalize UInt64.size - 1 = m at hzero hword
    omega
  rw [hrefill] at hzero
  have htake : b.takeTokens 1 = none := if_neg (by omega)
  rw [hbucket, TokenBucket.allowN, hrefill, htake]

variable (auth) in
/-- A request that the global bucket rejects leaves a limiter that decides alike. -/
theorem alike_atGlobal (henabled : config.rateLimit.enabled)
    (hzero : limiter.tokensFor now limiter.globalCheck = 0) :
    (limiter.checkRateLimits now config auth).1.Alike limiter := by
  rw [checkRateLimits_atGlobal henabled hzero]
  refine ⟨rfl, rfl, rfl, ?_⟩
  by_cases hburst : limiter.defaultBurst = 0
  · exact .inr hburst
  · left
    have hbucket : limiter.global.get "global" =
        some ((limiter.found now limiter.globalCheck).allowN now 1).1 :=
      bucket_of_empty (c := limiter.globalCheck) hburst hzero
    refine KeyMap.ext fun key ↦ ?_
    rcases eq_or_ne key "global" with rfl | hne
    · exact hbucket.trans (KeyMap.get_insert_self ..).symm
    · exact (KeyMap.get_insert_of_ne hne).symm

theorem Alike.eq_or (h : limiter.Alike limiter') :
    limiter' = limiter ∨ limiter.defaultBurst = 0 := by
  refine h.global.imp_left fun hglobal ↦ ?_
  obtain ⟨global, perEntity, rate, burst⟩ := limiter'
  obtain ⟨rfl, rfl, rfl, -⟩ := h
  obtain rfl : global = limiter.global := hglobal
  rfl

theorem Alike.refl (limiter : RateLimiter) : limiter.Alike limiter := ⟨rfl, rfl, rfl, .inl rfl⟩

theorem Alike.trans {limiter'' : RateLimiter} (h : limiter.Alike limiter')
    (h' : limiter'.Alike limiter'') : limiter.Alike limiter'' := by
  refine ⟨h'.perEntity.trans h.perEntity, h'.defaultRate.trans h.defaultRate,
    h'.defaultBurst.trans h.defaultBurst, ?_⟩
  rcases h.global with hglobal | hburst
  · exact h'.global.imp (fun heq ↦ heq.trans hglobal) fun hzero ↦ h.defaultBurst.symm.trans hzero
  · exact .inr hburst

/-- The decisions agree, and the limiters go on deciding alike. -/
theorem Alike.decision (h : limiter.Alike limiter') (hs : limiter.Sound) (hs' : limiter'.Sound)
    (config : Config) (auth : Option AuthContext) (now : ℕ) :
    limiter'.decision config auth now = limiter.decision config auth now ∧
      (limiter.checkRateLimits now config auth).1.Alike
        (limiter'.checkRateLimits now config auth).1 := by
  rcases h.eq_or with rfl | hburst
  · exact ⟨rfl, rfl, rfl, rfl, .inl rfl⟩
  · have hzero : limiter.tokensFor now limiter.globalCheck = 0 :=
      Nat.le_zero.1 ((hs.tokensFor_le _).trans hburst.le)
    have hzero' : limiter'.tokensFor now limiter'.globalCheck = 0 :=
      Nat.le_zero.1 ((hs'.tokensFor_le _).trans (h.defaultBurst.trans hburst).le)
    by_cases henabled : config.rateLimit.enabled
    · rw [RateLimiter.decision, RateLimiter.decision, checkRateLimits_atGlobal henabled hzero,
        checkRateLimits_atGlobal henabled hzero', hzero, hzero']
      exact ⟨rfl, h.perEntity, h.defaultRate, h.defaultBurst, .inr hburst⟩
    · have hopen {l : RateLimiter} : l.checkRateLimits now config auth = (l, .ok ()) :=
        if_pos (by simp [henabled])
      rw [RateLimiter.decision, RateLimiter.decision, hopen, hopen, hzero, hzero']
      exact ⟨rfl, h⟩

/-- The requests that the global bucket rejects can be taken out of a run. -/
theorem decisions_others (mine : Option AuthContext → Bool)
    (requests : List (Option AuthContext × ℕ)) (h : limiter.Alike limiter') (hs : limiter.Sound)
    (hs' : limiter'.Sound) :
    decisions config limiter' ((others mine (decisions config limiter requests)).map
        Decision.request) =
      others mine (decisions config limiter requests) := by
  induction requests generalizing limiter limiter' with
  | nil => rfl
  | cons request rest ih =>
    obtain ⟨auth, now⟩ := request
    have hnext := hs.checkRateLimits now config auth
    rw [decisions, others, List.filter_cons]
    by_cases hkept : (!(mine (limiter.decision config auth now).auth &&
        (limiter.decision config auth now).atGlobal)) = true
    · rw [if_pos hkept, List.map_cons]
      obtain ⟨hdecision, halike⟩ := h.decision hs hs' config auth now
      have hrest := ih halike hnext (hs'.checkRateLimits now config auth)
      rw [show (limiter.decision config auth now).request = (auth, now) from rfl, decisions,
        hdecision]
      exact congrArg _ hrest
    · rw [if_neg hkept]
      -- the request is left out, and the limiter it leaves decides like the one before it
      have hatGlobal : (limiter.decision config auth now).atGlobal = true := by
        simp only [Bool.not_eq_true', Bool.not_eq_false, Bool.and_eq_true] at hkept
        exact hkept.2
      simp only [RateLimiter.decision, Bool.and_eq_true, beq_iff_eq] at hatGlobal
      have hback := alike_atGlobal auth hatGlobal.1 hatGlobal.2
      exact ih (hback.trans h) hnext hs'

/-- **What a rejected request consumes.** Of the buckets it is checked against in their order, those
before the one that rejects it are charged one token each, and no other check finds fewer tokens
than before; so it consumes nothing exactly when the global bucket already rejects it. In any run
such requests of one principal can be left out, and every other request is decided as before. -/
theorem rejected_consumes :
    (∀ limiter : RateLimiter, limiter.Sound → ∀ now config auth e,
      (limiter.checkRateLimits now config auth).2 = .error e →
        (∃ before c after, limiter.checksOf config auth = before ++ c :: after ∧
          limiter.tokensFor now c = 0 ∧
            (∀ d ∈ before, (limiter.checkRateLimits now config auth).1.tokensFor now d + 1 =
              limiter.tokensFor now d) ∧
              ∀ d ∉ before, limiter.tokensFor now d ≤
                (limiter.checkRateLimits now config auth).1.tokensFor now d) ∧
          (HoldsAsMuch now limiter (limiter.checkRateLimits now config auth).1 ↔
            limiter.tokensFor now limiter.globalCheck = 0)) ∧
      ∀ limiter : RateLimiter, limiter.Sound → ∀ config mine requests,
        decisions config limiter ((others mine (decisions config limiter requests)).map
            Decision.request) =
          others mine (decisions config limiter requests) := by
  refine ⟨fun limiter hs now config auth e h ↦ ⟨?_, holdsAsMuch_iff hs h⟩,
    fun limiter hs config mine requests ↦ decisions_others mine requests (.refl _) hs hs⟩
  obtain ⟨-, hreject⟩ := checkRateLimits_error h
  obtain ⟨before, c, after, hchecks, hzero, hbefore, hothers⟩ :=
    runChecks_rejects hs nodup_checksOf hreject
  rw [checkRateLimits_eq]
  exact ⟨before, c, after, hchecks, hzero, fun d hd ↦ (hbefore d hd).2, hothers⟩

/-- Rate limits of two requests with no refill. -/
def twoRequests : Config :=
  { Config.default with rateLimit := { enabled := true, requestsPerSecond := 0, burstSize := 2 } }

/-- A key that is allowed no request. -/
def barredKey : AuthContext :=
  { AuthContext.default with
    keyId := some "barred"
    rateLimitOverride := some { requestsPerSecond := some 0, burstSize := some 0 } }

/-- Two rejected requests of the barred key leave no token to anybody else. -/
theorem barredKey_consumes :
    (new 0 2).Sound ∧
      ((new 0 2).checkRateLimits 0 twoRequests (some barredKey)).2 = .error (.rateLimited 1) ∧
        ¬ HoldsAsMuch 0 (new 0 2) ((new 0 2).checkRateLimits 0 twoRequests (some barredKey)).1 ∧
          (decisions twoRequests (new 0 2)
              [(some barredKey, 0), (some barredKey, 0), (none, 0)]).map Decision.result =
            [.error (.rateLimited 1), .error (.rateLimited 1), .error (.rateLimited 1)] ∧
            (decisions twoRequests (new 0 2) [(none, 0)]).map Decision.result = [.ok ()] := by
  refine ⟨fun name bucket h ↦ ?_, rfl, fun h ↦ ?_, rfl, rfl⟩
  · rcases name with - | key <;> cases h
  · exact absurd (h (new 0 2).globalCheck) (by decide)

end RateLimiter

end Himadri
