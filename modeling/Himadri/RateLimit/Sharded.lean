import Himadri.RateLimit.TokenBucket

/-!
# Buckets by key

`ShardedRateLimiter::allow_with_params` looks for the key's bucket under the shard's read lock and
calls it there. A caller that finds none with its parameters comes back under the write lock, looks
again, and only then builds one. `ShardRun` is the limiter under any number of callers. It keeps
every bucket that was ever built, since a caller may still hold one that the map has let go of. The
read lock is held over the call of the bucket too; without it more can happen here than there.
-/

namespace Himadri

/-- The buckets built so far with the keys they were built for, the addresses the map holds, and the
callers between the two sections, with their keys and parameters. The shards are one map. -/
structure ShardRun where
  clock : ℕ
  cells : List (String × BucketRun)
  buckets : KeyMap String ℕ
  waiting : List (String × ℕ × ℕ)

/-- One step. -/
inductive ShardOp
  /-- The section of a caller under the read lock. -/
  | look (key : String) (rate capacity : ℕ)
  /-- The section of the waiting caller `i` under the write lock. -/
  | enter (i now : ℕ)
  /-- A call of the bucket at `a` goes on. -/
  | act (a : ℕ) (op : BucketOp)
  /-- `clear` of the shard with these keys. -/
  | clear (shard : String → Bool)

namespace ShardRun

/-- A limiter nobody has called yet. -/
def start : ShardRun := ⟨0, [], .empty, []⟩

section Step

variable (s : ShardRun)

/-- The address of the key's bucket, where it was built with these parameters. -/
def find (key : String) (rate capacity : ℕ) : Option ℕ :=
  (s.buckets.get key).filter fun a ↦
    (s.cells[a]?).any fun cell ↦
      cell.2.bucket.rate == rate && cell.2.bucket.capacity == capacity

/-- A step of the bucket at `a`. -/
def actOn (a : ℕ) (op : BucketOp) : Option ShardRun :=
  match s.cells[a]? with
  | some (key, cell) =>
    match cell.step? op with
    | some cell' => some { s with cells := s.cells.set a (key, cell') }
    | none => none
  | none => none

/-- A new bucket for the key, in the place of any other. -/
def build (key : String) (rate capacity now : ℕ) : ShardRun :=
  { s with
    cells := s.cells ++ [(key, .start rate capacity now)]
    buckets := s.buckets.insert key s.cells.length }

/-- One step of the limiter. -/
def step? : ShardOp → Option ShardRun
  | .look key rate capacity =>
    match s.find key rate capacity with
    | some a => s.actOn a (.call 1)
    | none => some { s with waiting := s.waiting ++ [(key, rate, capacity)] }
  | .enter i now =>
    match s.waiting[i]? with
    | some (key, rate, capacity) =>
      if s.clock ≤ now then
        let s := { s with clock := now, waiting := s.waiting.eraseIdx i }
        match s.find key rate capacity with
        | some a => s.actOn a (.call 1)
        | none => (s.build key rate capacity now).actOn s.cells.length (.call 1)
      else none
    | none => none
  | .act a op =>
    match op with
    | .call _ => none
    | .readClock j now =>
      if s.clock ≤ now then { s with clock := now }.actOn a (.readClock j now) else none
    | op => s.actOn a op
  | .clear shard => some { s with buckets := s.buckets.retain fun key ↦ !shard key }

/-- What the callers of a key have been granted by all its buckets. -/
def grantedTo (key : String) : ℕ :=
  (s.cells.map fun cell ↦ if cell.1 = key then cell.2.granted else 0).sum

end Step

/-- Any number of callers, of any keys. -/
def runs : TransitionSystem ShardRun ShardOp := .ofPartial (· = start) step?

/-- The parameters of the key are not changed, and the key is not cleared. -/
def Keeps (key : String) (rate capacity : ℕ) (_ : ShardRun) : ShardOp → Prop
  | .look key' rate' capacity' => key' = key → rate' = rate ∧ capacity' = capacity
  | .clear shard => shard key = false
  | _ => True

/-! ### What a step can do -/

section Inversion

variable {s s' : ShardRun} {a : ℕ}

theorem actOn_eq_some {op : BucketOp} (h : s.actOn a op = some s') :
    ∃ key cell cell', s.cells[a]? = some (key, cell) ∧ cell.step? op = some cell' ∧
      s' = { s with cells := s.cells.set a (key, cell') } := by
  rw [actOn] at h
  split at h
  · next key cell ha =>
    split at h
    · next cell' hcell => exact ⟨key, cell, cell', ha, hcell, (Option.some.inj h).symm⟩
    · cases h
  · cases h

theorem step?_look {key : String} {rate capacity : ℕ}
    (h : s.step? (.look key rate capacity) = some s') :
    (∃ a, s.actOn a (.call 1) = some s') ∨
      s' = { s with waiting := s.waiting ++ [(key, rate, capacity)] } := by
  simp only [step?] at h
  split at h
  · exact .inl ⟨_, h⟩
  · exact .inr (Option.some.inj h).symm

theorem step?_enter {i now : ℕ} (h : s.step? (.enter i now) = some s') :
    s.clock ≤ now ∧ ∃ key rate capacity, s.waiting[i]? = some (key, rate, capacity) ∧
      ∃ t, t = { s with clock := now, waiting := s.waiting.eraseIdx i } ∧
        ((∃ a, t.actOn a (.call 1) = some s') ∨
          t.find key rate capacity = none ∧
            (t.build key rate capacity now).actOn s.cells.length (.call 1) = some s') := by
  simp only [step?] at h
  split at h
  · next key rate capacity hi =>
    obtain ⟨hnow, h⟩ := Option.ite_none_right_eq_some.1 h
    refine ⟨hnow, key, rate, capacity, hi, _, rfl, ?_⟩
    split at h
    · exact .inl ⟨_, h⟩
    · next hnone => exact .inr ⟨hnone, h⟩
  · cases h

theorem step?_act {op : BucketOp} (h : s.step? (.act a op) = some s') :
    ∃ now, s.clock ≤ now ∧ (∀ j t, op = .readClock j t → t = now) ∧
      ShardRun.actOn { s with clock := now } a op = some s' := by
  simp only [step?] at h
  split at h
  · cases h
  · next j now =>
    obtain ⟨hnow, h⟩ := Option.ite_none_right_eq_some.1 h
    refine ⟨now, hnow, fun j' t heq ↦ ?_, h⟩
    cases heq
    rfl
  · next hcall hread => exact ⟨s.clock, le_rfl, fun j t heq ↦ absurd heq (hread j t), h⟩

/-- What stands at an address after a bucket has been built stood there, or is the bucket. -/
theorem cell_build {key' : String} {rate' capacity' now i : ℕ} {c : String × BucketRun}
    (hi : (s.build key' rate' capacity' now).cells[i]? = some c) :
    s.cells[i]? = some c ∨ i = s.cells.length ∧ c = (key', .start rate' capacity' now) := by
  rcases Nat.lt_or_ge i s.cells.length with hlt | hge
  · exact .inl ((List.getElem?_append_left hlt).symm.trans hi)
  · have hlast : [(key', BucketRun.start rate' capacity' now)][i - s.cells.length]? = some c :=
      (List.getElem?_append_right hge).symm.trans hi
    have hzero : i - s.cells.length < 1 := (List.getElem?_eq_some_iff.1 hlast).1
    exact .inr ⟨by omega, List.mem_singleton.1 (List.mem_of_getElem? hlast)⟩

end Inversion

/-! ### One bucket for the key -/

/-- No other bucket was ever built for the key than the one the map holds. -/
structure OneBucket (key : String) (rate capacity : ℕ) (s : ShardRun) : Prop where
  reachable : ∀ cell ∈ s.cells, BucketRun.runs.Reachable cell.2
  clock_le : ∀ cell ∈ s.cells, cell.2.clock ≤ s.clock
  waiting : ∀ w ∈ s.waiting, w.1 = key → w.2 = (rate, capacity)
  absent : s.buckets.get key = none → ∀ cell ∈ s.cells, cell.1 ≠ key
  present : ∀ a, s.buckets.get key = some a →
    ∃ cell, s.cells[a]? = some (key, cell) ∧ cell.bucket.rate = rate ∧
      cell.bucket.capacity = capacity ∧ ∀ i cell', s.cells[i]? = some (key, cell') → i = a

namespace OneBucket

variable {key : String} {rate capacity : ℕ} {s s' : ShardRun} {a : ℕ}

theorem advance (h : OneBucket key rate capacity s) {now : ℕ} (hnow : s.clock ≤ now) :
    OneBucket key rate capacity { s with clock := now } :=
  ⟨h.reachable, fun cell hcell ↦ (h.clock_le cell hcell).trans hnow, h.waiting, h.absent, h.present⟩

theorem wait (h : OneBucket key rate capacity s) {waiting : List (String × ℕ × ℕ)}
    (hwaiting : ∀ w ∈ waiting, w.1 = key → w.2 = (rate, capacity)) :
    OneBucket key rate capacity { s with waiting := waiting } :=
  ⟨h.reachable, h.clock_le, hwaiting, h.absent, h.present⟩

/-- A step of a bucket leaves the keys of the buckets as they are. -/
theorem actOn (h : OneBucket key rate capacity s) {op : BucketOp}
    (hop : ∀ j t, op = .readClock j t → t ≤ s.clock) (hstep : s.actOn a op = some s') :
    OneBucket key rate capacity s' := by
  obtain ⟨key', cell, cell', ha, hcell, rfl⟩ := actOn_eq_some hstep
  obtain ⟨hrate, hcapacity, -, hclock⟩ := BucketRun.step?_fixed hcell
  have hmem : (key', cell) ∈ s.cells := List.mem_of_getElem? ha
  have hlt : a < s.cells.length := (List.getElem?_eq_some_iff.1 ha).1
  -- what stands at an address is what stood there, but for the bucket at `a`
  have hat {i : ℕ} {k : String} {c : BucketRun}
      (hi : (s.cells.set a (key', cell'))[i]? = some (k, c)) :
      ∃ c₀, s.cells[i]? = some (k, c₀) := by
    rcases eq_or_ne i a with rfl | hne
    · rw [List.getElem?_set_self hlt] at hi
      obtain ⟨rfl, rfl⟩ := Prod.mk.inj (Option.some.inj hi)
      exact ⟨cell, ha⟩
    · rw [List.getElem?_set_ne hne.symm] at hi
      exact ⟨c, hi⟩
  refine ⟨fun c hc ↦ ?_, fun c hc ↦ ?_, h.waiting, fun hnone c hc ↦ ?_, fun b hb ↦ ?_⟩
  · rcases List.mem_or_eq_of_mem_set hc with hc | rfl
    · exact h.reachable c hc
    · exact (h.reachable _ hmem).step hcell
  · rcases List.mem_or_eq_of_mem_set hc with hc | rfl
    · exact h.clock_le c hc
    · rcases hclock with heq | ⟨j, hread⟩
      · exact heq.trans_le (h.clock_le _ hmem)
      · exact hop j _ hread
  · rcases List.mem_or_eq_of_mem_set hc with hc | rfl
    · exact h.absent hnone c hc
    · exact h.absent hnone (key', cell) hmem
  · obtain ⟨c, hc, hcrate, hccapacity, honly⟩ := h.present b hb
    have honly' : ∀ i c', (s.cells.set a (key', cell'))[i]? = some (key, c') → i = b := by
      intro i c' hi
      obtain ⟨c₀, hc₀⟩ := hat hi
      exact honly i c₀ hc₀
    rcases eq_or_ne b a with rfl | hne
    · obtain ⟨rfl, rfl⟩ := Prod.mk.inj (Option.some.inj (ha.symm.trans hc))
      exact ⟨cell', List.getElem?_set_self hlt, hrate.trans hcrate, hcapacity.trans hccapacity,
        honly'⟩
    · exact ⟨c, (List.getElem?_set_ne hne.symm).trans hc, hcrate, hccapacity, honly'⟩

/-- A caller of the key builds a bucket only where there is none. -/
theorem build (h : OneBucket key rate capacity s) {key' : String} {rate' capacity' : ℕ}
    (hparams : key' = key → (rate', capacity') = (rate, capacity))
    (hfind : s.find key' rate' capacity' = none) :
    OneBucket key rate capacity (s.build key' rate' capacity' s.clock) := by
  have hnew : BucketRun.runs.Reachable (.start rate' capacity' s.clock) :=
    .init ⟨rate', capacity', s.clock, rfl⟩
  have hcells {c : String × BucketRun} (hc : c ∈ (s.build key' rate' capacity' s.clock).cells) :
      c ∈ s.cells ∨ c = (key', .start rate' capacity' s.clock) :=
    (List.mem_append.1 hc).imp_right List.mem_singleton.1
  have hreachable : ∀ c ∈ (s.build key' rate' capacity' s.clock).cells,
      BucketRun.runs.Reachable c.2 := by
    intro c hc
    rcases hcells hc with hc | rfl
    · exact h.reachable c hc
    · exact hnew
  have hclock : ∀ c ∈ (s.build key' rate' capacity' s.clock).cells, c.2.clock ≤ s.clock := by
    intro c hc
    rcases hcells hc with hc | rfl
    · exact h.clock_le c hc
    · exact le_rfl
  rcases eq_or_ne key' key with rfl | hne
  · obtain ⟨rfl, rfl⟩ := Prod.mk.inj (hparams rfl)
    -- the bucket in the map would have been found
    have habsent : s.buckets.get key' = none := by
      rcases hget : s.buckets.get key' with - | a
      · rfl
      · obtain ⟨cell, hcell, hrate, hcapacity, -⟩ := h.present a hget
        rw [ShardRun.find, hget, Option.filter_some, if_pos] at hfind
        · cases hfind
        · simp [hcell, hrate, hcapacity]
    refine ⟨hreachable, hclock, h.waiting, fun hnone ↦ ?_, fun a ha ↦ ?_⟩
    · exact absurd ((KeyMap.get_insert_self ..).symm.trans hnone) (by simp)
    · obtain rfl : s.cells.length = a :=
        Option.some.inj ((KeyMap.get_insert_self ..).symm.trans ha)
      refine ⟨_, List.getElem?_concat_length, rfl, rfl, fun i cell' hi ↦ ?_⟩
      rcases cell_build hi with hold | ⟨heq, -⟩
      · exact absurd rfl (h.absent habsent _ (List.mem_of_getElem? hold))
      · exact heq
  · have hget : (s.build key' rate' capacity' s.clock).buckets.get key = s.buckets.get key :=
      KeyMap.get_insert_of_ne hne.symm
    refine ⟨hreachable, hclock, h.waiting, fun hnone c hc ↦ ?_, fun a ha ↦ ?_⟩
    · rcases hcells hc with hc | rfl
      · exact h.absent (hget.symm.trans hnone) c hc
      · exact hne
    · obtain ⟨cell, hcell, hrate, hcapacity, honly⟩ := h.present a (hget.symm.trans ha)
      have hlt : a < s.cells.length := (List.getElem?_eq_some_iff.1 hcell).1
      refine ⟨cell, (List.getElem?_append_left hlt).trans hcell, hrate, hcapacity,
        fun i cell' hi ↦ ?_⟩
      rcases cell_build hi with hold | ⟨-, heq⟩
      · exact honly i cell' hold
      · exact absurd (Prod.mk.inj heq).1.symm hne

theorem step {op : ShardOp} (h : OneBucket key rate capacity s)
    (hok : Keeps key rate capacity s op) (hstep : s.step? op = some s') :
    OneBucket key rate capacity s' := by
  cases op with
  | look key' rate' capacity' =>
    obtain ⟨a, ha⟩ | rfl := step?_look hstep
    · exact h.actOn (fun j t heq ↦ by cases heq) ha
    · refine h.wait fun w hw hkey ↦ ?_
      rcases List.mem_append.1 hw with hw | hw
      · exact h.waiting w hw hkey
      · obtain rfl := List.mem_singleton.1 hw
        obtain ⟨rfl, rfl⟩ := hok hkey
        rfl
  | enter i now =>
    obtain ⟨hnow, key', rate', capacity', hi, t, rfl, hcases⟩ := step?_enter hstep
    have hentered : OneBucket key rate capacity
        { s with clock := now, waiting := s.waiting.eraseIdx i } :=
      (h.advance hnow).wait fun w hw ↦ h.waiting w (List.mem_of_mem_eraseIdx hw)
    obtain ⟨a, ha⟩ | ⟨hfind, ha⟩ := hcases
    · exact hentered.actOn (fun j t heq ↦ by cases heq) ha
    · have hparams := h.waiting _ (List.mem_of_getElem? hi)
      exact (hentered.build hparams hfind).actOn (fun j t heq ↦ by cases heq) ha
  | act a op =>
    obtain ⟨now, hnow, hread, ha⟩ := step?_act hstep
    exact (h.advance hnow).actOn (fun j t heq ↦ (hread j t heq).le) ha
  | clear shard =>
    obtain rfl := Option.some.inj hstep
    have hget : (s.buckets.retain fun k ↦ !shard k).get key = s.buckets.get key := by
      have hkeep : shard key = false := hok
      simp [hkeep]
    exact ⟨h.reachable, h.clock_le, h.waiting, fun hnone ↦ h.absent (hget.symm.trans hnone),
      fun a ha ↦ h.present a (hget.symm.trans ha)⟩

end OneBucket

theorem oneBucket_invariant (key : String) (rate capacity : ℕ) :
    (runs.guard (Keeps key rate capacity)).Invariant (OneBucket key rate capacity) where
  init s hs := by
    obtain rfl : s = start := hs
    exact ⟨fun c hc ↦ (by cases hc), fun c hc ↦ (by cases hc), fun w hw ↦ (by cases hw),
      fun _ c hc ↦ (by cases hc), fun a ha ↦ (by cases ha)⟩
  step _ _ _ h hstep := h.step hstep.2 hstep.1

/-! ### What a key is granted -/

/-- A sum with a single term that counts. -/
theorem sum_map_of_single {α : Type*} {f : α → ℕ} {l : List α} {a : ℕ} {x : α}
    (hx : l[a]? = some x) (h : ∀ i y, l[i]? = some y → i ≠ a → f y = 0) :
    (l.map f).sum = f x := by
  induction l generalizing a with
  | nil => cases hx
  | cons y l ih =>
    rw [List.map_cons, List.sum_cons]
    rcases a with - | a
    · obtain rfl : y = x := Option.some.inj hx
      have hrest : ∀ z ∈ l.map f, z = 0 := by
        intro z hz
        obtain ⟨w, hw, rfl⟩ := List.mem_map.1 hz
        obtain ⟨i, hi⟩ := List.mem_iff_getElem?.1 hw
        exact h (i + 1) w hi (Nat.succ_ne_zero i)
      rw [List.sum_eq_zero hrest, Nat.add_zero]
    · have hy : f y = 0 := h 0 y rfl (Nat.succ_ne_zero a).symm
      rw [hy, Nat.zero_add]
      exact ih hx fun i z hz hne ↦ h (i + 1) z hz fun heq ↦ hne (Nat.succ.inj heq)

section Grants

variable {key : String} {rate capacity : ℕ} {s : ShardRun}

theorem OneBucket.grantedTo_eq (h : OneBucket key rate capacity s) {a : ℕ} {cell : BucketRun}
    (ha : s.buckets.get key = some a) (hcell : s.cells[a]? = some (key, cell)) :
    s.grantedTo key = cell.granted := by
  obtain ⟨-, -, -, -, honly⟩ := h.present a ha
  refine (sum_map_of_single hcell fun i c hi hne ↦ ?_).trans (if_pos rfl)
  obtain ⟨k, c⟩ := c
  refine if_neg fun hkey ↦ hne ?_
  obtain rfl : k = key := hkey
  exact honly i c hi

theorem OneBucket.grantedTo_eq_zero (h : OneBucket key rate capacity s)
    (hnone : s.buckets.get key = none) : s.grantedTo key = 0 := by
  refine List.sum_eq_zero fun x hx ↦ ?_
  obtain ⟨c, hc, rfl⟩ := List.mem_map.1 hx
  exact if_neg (h.absent hnone c hc)

end Grants

/-- **The token bucket under interleaving.** Whatever calls run on a bucket, and however their steps
interleave, its tokens never exceed the capacity, a grant is taken off them exactly, and the grants
fit in the capacity and what the rate gives for the time since the bucket was built. The same holds
for a key of the limiter whose parameters stay and that is not cleared, whatever happens to other
keys: all its callers share the one bucket that was ever built for it. -/
theorem granted_within_rate :
    (∀ s, BucketRun.runs.Reachable s →
      s.bucket.tokens ≤ s.bucket.capacity ∧
        s.granted ≤ s.bucket.capacity + (s.clock - s.created) * s.bucket.rate / 1000000 ∧
          ∀ op s', BucketRun.runs.Step s op s' → s'.granted = s.granted ∨
            ∃ n, s'.granted = s.granted + n ∧ s.bucket.tokens = s'.bucket.tokens + n) ∧
      ∀ key rate capacity s, (runs.guard (Keeps key rate capacity)).Reachable s →
        (s.buckets.get key = none → s.grantedTo key = 0) ∧
          ∀ a, s.buckets.get key = some a → ∃ cell, s.cells[a]? = some (key, cell) ∧
            cell.bucket.tokens ≤ capacity ∧ s.grantedTo key = cell.granted ∧
              s.grantedTo key ≤ capacity + (s.clock - cell.created) * rate / 1000000 := by
  refine ⟨fun s hs ↦ ⟨(BucketRun.bounded_invariant.of_reachable hs).tokens_le,
    BucketRun.granted_le hs, fun op s' hstep ↦ BucketRun.tokens_of_granted hstep⟩,
    fun key rate capacity s hs ↦ ?_⟩
  have h := (oneBucket_invariant key rate capacity).of_reachable hs
  refine ⟨h.grantedTo_eq_zero, fun a ha ↦ ?_⟩
  obtain ⟨cell, hcell, rfl, rfl, -⟩ := h.present a ha
  have hmem := List.mem_of_getElem? hcell
  have hreach : BucketRun.runs.Reachable cell := h.reachable _ hmem
  have hgranted := h.grantedTo_eq ha hcell
  refine ⟨cell, hcell, (BucketRun.bounded_invariant.of_reachable hreach).tokens_le, hgranted, ?_⟩
  have hbound := BucketRun.granted_le hreach
  have hclock : cell.clock ≤ s.clock := h.clock_le _ hmem
  have helapsed : (cell.clock - cell.created) * cell.bucket.rate / 1000000 ≤
      (s.clock - cell.created) * cell.bucket.rate / 1000000 :=
    Nat.div_le_div_right (Nat.mul_le_mul_right _ (by omega))
  exact hgranted.trans_le (hbound.trans (Nat.add_le_add_left helapsed _))

end ShardRun

end Himadri
