import Himadri.Plugins.FixedWindow
import Mathlib.Data.Finmap

/-!
# Rate limiters by key

`RateLimiterStore` keeps one fixed-window counter for each key, in shards. `allow` looks for the
key's counter under the read lock of its shard and, where there is one, calls it before it lets go
of the lock. A caller that finds none comes back under the write lock, looks again, evicts a random
key of a full shard, and only then builds a counter and calls it. `LimiterRun` is the store under
any number of callers; between its two sections a caller holds no lock.

An eviction or a reset gives a key its quota anew. `Accounted` bounds what a key was granted by the
number of times its counter was dropped; that no grant is counted in a counter that is already
dropped is the work of the read lock (`WellHeld`).
-/

namespace Himadri

/-- The counters of a shard: the packed word under each key. -/
abbrev LimiterShard := Finmap fun _ : String ↦ ℕ

/-- `RateLimiterStore`, apart from its shards, with the hash of a key as a `usize`. -/
structure RateLimiterStore where
  rate : ℕ
  window : Duration
  maxKeys : ℕ
  numShards : ℕ
  hash : String → ℕ
  numShards_pos : 0 < numShards

namespace FixedWindowCounter

variable (c : FixedWindowCounter)

/-- `allow`, on the packed word: the word afterwards, and whether the call is granted. -/
def allow (w packed : ℕ) : ℕ × Bool :=
  match c.consume w 1 packed with
  | some packed' => (packed', true)
  | none => (packed, false)

/-- What a counter can have granted in a window, by its word: all it grants in one window, where
its window is a later one, and what it counted, where it is that window. -/
def recorded (word : Option ℕ) (k : ℕ) : ℕ :=
  word.elim 0 fun packed ↦
    if k < windowOf packed then c.maxRequests
    else if k = windowOf packed then countOf packed
    else 0

theorem recorded_some (packed k : ℕ) :
    c.recorded (some packed) k =
      if k < windowOf packed then c.maxRequests
      else if k = windowOf packed then countOf packed
      else 0 := rfl

theorem recorded_le (word : Option ℕ) (h : ∀ packed ∈ word, countOf packed ≤ c.maxRequests)
    (k : ℕ) : c.recorded word k ≤ c.maxRequests := by
  rcases word with - | packed
  · exact Nat.zero_le _
  · rw [recorded_some]
    split_ifs
    · exact le_rfl
    · exact h packed rfl
    · exact Nat.zero_le _

/-- A counter that was just built has granted nothing. -/
theorem recorded_zero (k : ℕ) : c.recorded (some 0) k = 0 := by
  have hwindow : windowOf 0 = 0 := by decide
  have hcount : countOf 0 = 0 := by decide
  rw [recorded_some, hwindow, hcount, if_neg (Nat.not_lt_zero k), ite_self]

/-- A grant in order is recorded by the word. -/
theorem recorded_consume {w packed packed' : ℕ} (h : c.consume w 1 packed = some packed')
    (hw : windowOf packed ≤ w) (hle : countOf packed ≤ c.maxRequests) (k : ℕ) :
    c.recorded (some packed) k + (if k = w then 1 else 0) ≤ c.recorded (some packed') k := by
  obtain ⟨hwin, hmax, hcount⟩ := c.consume_eq_some h
  have hrec := c.recorded_le (some packed) (by simpa using hle) k
  rcases lt_trichotomy k w with hlt | rfl | hgt
  · rw [recorded_some c packed', hwin, if_pos hlt, if_neg hlt.ne, Nat.add_zero]
    exact hrec
  · rw [recorded_some, recorded_some, hwin, if_neg (lt_irrefl k), if_pos rfl, if_pos rfl, hcount,
      if_neg (not_lt.2 hw)]
    exact Nat.add_le_add_right (le_of_eq (if_congr eq_comm rfl rfl)) 1
  · rw [recorded_some, recorded_some, hwin, if_neg (not_lt.2 hgt.le), if_neg hgt.ne',
      if_neg (not_lt.2 (hw.trans hgt.le)), if_neg (hw.trans_lt hgt).ne', if_neg hgt.ne']

/-- What a call does to the word: it never counts past the quota, and what it grants in order is
recorded. -/
theorem allow_spec (w : ℕ) {packed : ℕ} (hle : countOf packed ≤ c.maxRequests) :
    countOf (c.allow w packed).1 ≤ c.maxRequests ∧
      (windowOf packed ≤ w → ∀ k, c.recorded (some packed) k +
          (if (c.allow w packed).2 = true ∧ k = w then 1 else 0) ≤
        c.recorded (some (c.allow w packed).1) k) := by
  rw [allow]
  rcases hcons : c.consume w 1 packed with - | packed'
  · exact ⟨hle, fun _ k ↦ by simp⟩
  · refine ⟨(c.consume_eq_some hcons).2.1, fun hw k ↦ ?_⟩
    simpa using c.recorded_consume hcons hw hle k

end FixedWindowCounter

namespace RateLimiterStore

variable (store : RateLimiterStore)

/-- `RateLimiterStore::new` with the number of shards of `get_or_create_store`. -/
def new (rate : ℕ) (window : Duration) (maxKeys : ℕ) (hash : String → ℕ) : RateLimiterStore where
  rate
  window
  maxKeys
  numShards := 64
  hash
  numShards_pos := by decide

/-- `shard_index`. -/
def shardIndex (key : String) : ℕ := store.hash key % store.numShards

/-- The counter that `allow` builds. -/
def counter : FixedWindowCounter := .new store.rate store.window

/-- A new key of the shard evicts one. -/
def atCapacity (shard : LimiterShard) : Bool :=
  0 < store.maxKeys && store.maxKeys ≤ shard.keys.card

/-- The section of `allow` under the write lock, in the window `w`; `victim` is the key that is
drawn from a full shard. -/
def enter (shard : LimiterShard) (key : String) (w : ℕ) (victim : String) : LimiterShard × Bool :=
  match shard.lookup key with
  | some packed =>
    let (packed, allowed) := store.counter.allow w packed
    (shard.insert key packed, allowed)
  | none =>
    let shard := if store.atCapacity shard then shard.erase victim else shard
    let (packed, allowed) := store.counter.allow w 0
    (shard.insert key packed, allowed)

/-- `allow` of a caller whom nobody disturbs: whether it finds its counter at once or at the second
look, it does what the second look does. -/
def allow (shards : ℕ → LimiterShard) (key : String) (w : ℕ) (victim : String) :
    (ℕ → LimiterShard) × Bool :=
  let (shard, allowed) := store.enter (shards (store.shardIndex key)) key w victim
  (Function.update shards (store.shardIndex key) shard, allowed)

theorem allow_fst (shards : ℕ → LimiterShard) (key : String) (w : ℕ) (victim : String) :
    (store.allow shards key w victim).1 = Function.update shards (store.shardIndex key)
      (store.enter (shards (store.shardIndex key)) key w victim).1 := rfl

/-- The keys that the section evicts. -/
def evicted (shard : LimiterShard) (key victim : String) : Multiset String :=
  if key ∉ shard ∧ store.atCapacity shard then {victim} else 0

end RateLimiterStore

/-- The store with its callers. -/
structure LimiterRun (store : RateLimiterStore) where
  clock : ℕ
  shards : ℕ → LimiterShard
  /-- The callers that found no counter and hold no lock. -/
  missed : List String
  /-- The callers that hold the read lock of their shard, with the window they have read. -/
  reading : List (String × ℕ)
  /-- The calls that were granted, each in its window. -/
  granted : Multiset (String × ℕ)
  /-- The keys whose counter was evicted, reset or cleared. -/
  dropped : Multiset String

/-- One step. -/
inductive LimiterOp
  /-- Time goes on. -/
  | tick (now : ℕ)
  /-- A caller takes the read lock and looks for its counter. -/
  | look (key : String)
  /-- The `j`-th of the callers that found one updates its word and lets go of the lock. -/
  | update (j : ℕ)
  /-- The `j`-th of those that found none, under the write lock. -/
  | enter (j : ℕ) (victim : String)
  /-- `reset`, of a caller that read the clock at `readAt`. -/
  | reset (key : String) (readAt : ℕ)
  /-- `reset_all` at one shard. -/
  | clear (i : ℕ)

namespace LimiterRun

variable {store : RateLimiterStore}

/-- A store that nobody has called. -/
def start (store : RateLimiterStore) : LimiterRun store where
  clock := 0
  shards _ := ∅
  missed := []
  reading := []
  granted := 0
  dropped := 0

section Step

variable (s : LimiterRun store)

/-- The word of the key's counter. -/
def lookup (key : String) : Option ℕ := (s.shards (store.shardIndex key)).lookup key

/-- Nobody holds the read lock of the shard. -/
def unread (i : ℕ) : Bool := s.reading.all fun r ↦ store.shardIndex r.1 != i

/-- The window of a caller that reads the clock now. -/
def windowNow : ℕ := store.counter.windowIndex s.clock

/-- The shard of the key replaced. -/
def setShard (i : ℕ) (shard : LimiterShard) : LimiterRun store :=
  { s with shards := Function.update s.shards i shard }

/-- One more call, if it is granted. -/
def grant (key : String) (w : ℕ) (allowed : Bool) : LimiterRun store :=
  { s with granted := (if allowed then {(key, w)} else 0) + s.granted }

/-- One step. -/
def step? : LimiterOp → Option (LimiterRun store)
  | .tick now => if s.clock ≤ now then some { s with clock := now } else none
  | .look key =>
    match s.lookup key with
    | some _ => some { s with reading := s.reading ++ [(key, s.windowNow)] }
    | none => some { s with missed := s.missed ++ [key] }
  | .update j =>
    match s.reading[j]? with
    | none => none
    | some (key, w) =>
      let i := store.shardIndex key
      match (s.shards i).lookup key with
      | none => none
      | some packed =>
        let (packed, allowed) := store.counter.allow w packed
        some (({ s with reading := s.reading.eraseIdx j }.setShard i
          ((s.shards i).insert key packed)).grant key w allowed)
  | .enter j victim =>
    match s.missed[j]? with
    | none => none
    | some key =>
      let i := store.shardIndex key
      if s.unread i ∧ (store.atCapacity (s.shards i) → victim ∈ s.shards i) then
        let (shard, allowed) := store.enter (s.shards i) key s.windowNow victim
        some (({ s with
            missed := s.missed.eraseIdx j
            dropped := store.evicted (s.shards i) key victim + s.dropped }.setShard i shard).grant
          key s.windowNow allowed)
      else none
  | .reset key readAt =>
    let i := store.shardIndex key
    if key ∈ s.shards i then
      some ({ s with dropped := key ::ₘ s.dropped }.setShard i
        ((s.shards i).insert key (pack (store.counter.windowIndex readAt) 0)))
    else some s
  | .clear i =>
    if i < store.numShards ∧ s.unread i then
      some ({ s with dropped := (s.shards i).keys.val + s.dropped }.setShard i ∅)
    else none

/-- No caller updates a counter that has seen a later window. -/
def inOrder : LimiterOp → Bool
  | .update j => (s.reading[j]?).all fun r ↦ (s.lookup r.1).all fun packed ↦ windowOf packed ≤ r.2
  | .enter j _ =>
    (s.missed[j]?).all fun key ↦ (s.lookup key).all fun packed ↦ windowOf packed ≤ s.windowNow
  | _ => true

end Step

/-- Any number of callers, in any order. -/
def runs (store : RateLimiterStore) : TransitionSystem (LimiterRun store) (LimiterOp) :=
  .ofPartial (· = start store) step?

/-! ### What a section does to its shard -/

section Shard

variable (store) in
/-- The words of a shard count no more than the quota. -/
def Counted (shard : LimiterShard) : Prop :=
  ∀ key, ∀ packed ∈ shard.lookup key, countOf packed ≤ store.counter.maxRequests

variable (store) in
/-- A shard changes: what is granted is recorded by the words that remain, or paid for by the
counters that are dropped. -/
structure Pays (shard shard' : LimiterShard) (granted : Multiset (String × ℕ))
    (dropped : Multiset String) : Prop where
  counted : Counted store shard'
  paid : ∀ key k, granted.count (key, k) + store.counter.recorded (shard.lookup key) k ≤
    store.counter.maxRequests * dropped.count key + store.counter.recorded (shard'.lookup key) k

variable {shard : LimiterShard} {key victim : String} {w packed : ℕ}

theorem keys_insert (shard : LimiterShard) (key : String) (packed : ℕ) :
    (shard.insert key packed).keys = insert key shard.keys := by
  ext key'
  rw [Finmap.mem_keys, Finmap.mem_insert, Finset.mem_insert, Finmap.mem_keys]

theorem Counted.insert (h : Counted store shard)
    (hle : countOf packed ≤ store.counter.maxRequests) :
    Counted store (shard.insert key packed) := by
  intro key' packed' hmem
  rcases eq_or_ne key' key with rfl | hne
  · rw [Finmap.lookup_insert, Option.mem_some_iff] at hmem
    exact hmem ▸ hle
  · rw [Finmap.lookup_insert_of_ne _ hne] at hmem
    exact h key' packed' hmem

theorem Counted.erase (h : Counted store shard) (key : String) :
    Counted store (shard.erase key) := by
  intro key' packed' hmem
  rcases eq_or_ne key' key with rfl | hne
  · rw [Finmap.lookup_erase] at hmem
    cases hmem
  · rw [Finmap.lookup_erase_ne hne] at hmem
    exact h key' packed' hmem

theorem count_grant (key key' : String) (w k : ℕ) (allowed : Bool) :
    (if allowed then {(key, w)} else 0 : Multiset (String × ℕ)).count (key', k) =
      if key' = key ∧ allowed = true ∧ k = w then 1 else 0 := by
  rcases allowed with - | -
  · simp
  · simp [Multiset.count_singleton, Prod.ext_iff]

/-- A call of a counter of the shard. -/
theorem pays_update (h : Counted store shard) (hget : shard.lookup key = some packed)
    (hw : windowOf packed ≤ w) :
    Pays store shard (shard.insert key (store.counter.allow w packed).1)
      (if (store.counter.allow w packed).2 then {(key, w)} else 0) 0 := by
  obtain ⟨hle, hrec⟩ := store.counter.allow_spec w (h key packed hget)
  refine ⟨h.insert hle, fun key' k ↦ ?_⟩
  rw [count_grant, Multiset.count_zero, Nat.mul_zero, Nat.zero_add]
  rcases eq_or_ne key' key with rfl | hne
  · rw [Finmap.lookup_insert, hget, Nat.add_comm]
    simpa using hrec hw k
  · rw [Finmap.lookup_insert_of_ne _ hne, if_neg fun hk ↦ hne hk.1, Nat.zero_add]

/-- A counter that is built and called at once. -/
theorem pays_build (h : Counted store shard) (hnew : shard.lookup key = none) :
    Pays store shard (shard.insert key (store.counter.allow w 0).1)
      (if (store.counter.allow w 0).2 then {(key, w)} else 0) 0 := by
  have hzero : countOf 0 ≤ store.counter.maxRequests := Nat.zero_le _
  obtain ⟨hle, hrec⟩ := store.counter.allow_spec w hzero
  refine ⟨h.insert hle, fun key' k ↦ ?_⟩
  rw [count_grant, Multiset.count_zero, Nat.mul_zero, Nat.zero_add]
  rcases eq_or_ne key' key with rfl | hne
  · have hgrant := hrec (by rw [show windowOf 0 = 0 from by decide]; exact Nat.zero_le w) k
    rw [Finmap.lookup_insert, hnew, show store.counter.recorded none k = 0 from rfl, Nat.add_zero]
    rw [store.counter.recorded_zero, Nat.zero_add] at hgrant
    simpa using hgrant
  · rw [Finmap.lookup_insert_of_ne _ hne, if_neg fun hk ↦ hne hk.1, Nat.zero_add]

/-- A key that loses its counter. -/
theorem pays_erase (h : Counted store shard) (key : String) :
    Pays store shard (shard.erase key) 0 {key} := by
  refine ⟨h.erase key, fun key' k ↦ ?_⟩
  rw [Multiset.count_zero, Nat.zero_add]
  rcases eq_or_ne key' key with rfl | hne
  · rw [Multiset.count_singleton_self, Nat.mul_one]
    exact (store.counter.recorded_le _ (h key') k).trans (Nat.le_add_right ..)
  · rw [Finmap.lookup_erase_ne hne]
    exact Nat.le_add_left ..

theorem Pays.trans {shard' shard'' : LimiterShard} {g g' : Multiset (String × ℕ)}
    {d d' : Multiset String} (h : Pays store shard shard' g d)
    (h' : Pays store shard' shard'' g' d') : Pays store shard shard'' (g + g') (d + d') := by
  refine ⟨h'.counted, fun key k ↦ ?_⟩
  have hfirst := h.paid key k
  have hsecond := h'.paid key k
  rw [Multiset.count_add, Multiset.count_add, Nat.mul_add]
  omega

/-- The section under the write lock, in order where the counter has come to be meanwhile. -/
theorem pays_enter (victim : String) (h : Counted store shard)
    (hw : ∀ packed ∈ shard.lookup key, windowOf packed ≤ w) :
    Pays store shard (store.enter shard key w victim).1
      (if (store.enter shard key w victim).2 then {(key, w)} else 0)
      (store.evicted shard key victim) := by
  rcases hget : shard.lookup key with - | packed
  · have hnew : key ∉ shard := Finmap.lookup_eq_none.1 hget
    simp only [RateLimiterStore.enter, hget, RateLimiterStore.evicted, hnew, not_false_eq_true,
      true_and]
    by_cases hfull : store.atCapacity shard = true
    · have hnone : (shard.erase victim).lookup key = none :=
        Finmap.lookup_eq_none.2 fun hmem ↦ hnew (Finmap.mem_erase.1 hmem).2
      have hpays := (pays_erase h victim).trans (pays_build (w := w) (h.erase victim) hnone)
      rw [Multiset.zero_add, Multiset.add_zero] at hpays
      rwa [if_pos hfull, if_pos hfull]
    · rw [if_neg hfull, if_neg hfull]
      exact pays_build h hget
  · have hmem : ¬key ∉ shard := not_not.2 (Finmap.mem_of_lookup_eq_some hget)
    simp only [RateLimiterStore.enter, hget, RateLimiterStore.evicted, hmem, false_and, if_false]
    exact pays_update h hget (hw packed hget)

/-- A counter that starts its window anew. -/
theorem pays_reset (h : Counted store shard) (key : String) (readAt : ℕ) :
    Pays store shard (shard.insert key (pack (store.counter.windowIndex readAt) 0)) 0 {key} := by
  refine ⟨h.insert (by rw [countOf_pack (Nat.zero_le _)]; exact Nat.zero_le _), fun key' k ↦ ?_⟩
  rw [Multiset.count_zero, Nat.zero_add]
  rcases eq_or_ne key' key with rfl | hne
  · rw [Multiset.count_singleton_self, Nat.mul_one]
    exact (store.counter.recorded_le _ (h key') k).trans (Nat.le_add_right ..)
  · rw [Finmap.lookup_insert_of_ne _ hne]
    exact Nat.le_add_left ..

/-- A shard that is cleared. -/
theorem pays_clear (h : Counted store shard) : Pays store shard ∅ 0 shard.keys.val := by
  refine ⟨fun key packed hmem ↦ absurd hmem (by simp), fun key k ↦ ?_⟩
  rw [Multiset.count_zero, Nat.zero_add]
  rcases hget : shard.lookup key with - | packed
  · exact Nat.zero_le _
  · have hmem : key ∈ shard.keys := Finmap.mem_keys.2 (Finmap.mem_of_lookup_eq_some hget)
    rw [Multiset.count_eq_one_of_mem shard.keys.nodup hmem, Nat.mul_one, ← hget]
    exact (store.counter.recorded_le _ (h key) k).trans (Nat.le_add_right ..)

/-- No section leaves a shard with more keys than it may hold. -/
theorem card_enter_le (hmax : 0 < store.maxKeys) (h : shard.keys.card ≤ store.maxKeys)
    (hvictim : store.atCapacity shard → victim ∈ shard) :
    (store.enter shard key w victim).1.keys.card ≤ store.maxKeys := by
  rcases hget : shard.lookup key with - | packed
  · simp only [RateLimiterStore.enter, hget, keys_insert]
    by_cases hfull : store.atCapacity shard = true
    · have hvictim' : victim ∈ shard.keys := Finmap.mem_keys.2 (hvictim hfull)
      have hcard := Finset.card_erase_add_one hvictim'
      rw [if_pos hfull, Finmap.keys_erase]
      exact (Finset.card_insert_le ..).trans (hcard.trans_le h)
    · have hroom : shard.keys.card < store.maxKeys := by
        rw [RateLimiterStore.atCapacity, Bool.and_eq_true, decide_eq_true_eq, decide_eq_true_eq,
          not_and] at hfull
        exact not_le.1 (hfull hmax)
      rw [if_neg hfull]
      exact (Finset.card_insert_le ..).trans hroom
  · have hmem : key ∈ shard.keys := Finmap.mem_keys.2 (Finmap.mem_of_lookup_eq_some hget)
    simp only [RateLimiterStore.enter, hget, keys_insert]
    rwa [Finset.insert_eq_of_mem hmem]

/-- No section brings a key but its own into a shard. -/
theorem mem_enter {key' : String} (h : key' ∈ (store.enter shard key w victim).1) :
    key' = key ∨ key' ∈ shard := by
  rcases hget : shard.lookup key with - | packed
  · simp only [RateLimiterStore.enter, hget, Finmap.mem_insert] at h
    refine h.imp_right fun hmem ↦ ?_
    split_ifs at hmem
    · exact (Finmap.mem_erase.1 hmem).2
    · exact hmem
  · simp only [RateLimiterStore.enter, hget, Finmap.mem_insert] at h
    exact h

end Shard

/-- What a key was granted in a window is recorded by its counter, but for its quota once for each
time its counter was dropped. -/
structure Accounted (store : RateLimiterStore) (shards : ℕ → LimiterShard)
    (granted : Multiset (String × ℕ)) (dropped : Multiset String) : Prop where
  counted : ∀ i, Counted store (shards i)
  granted_le : ∀ key k, granted.count (key, k) ≤ store.counter.maxRequests * dropped.count key +
    store.counter.recorded ((shards (store.shardIndex key)).lookup key) k

section Accounted

variable {shards : ℕ → LimiterShard} {granted : Multiset (String × ℕ)} {dropped : Multiset String}

theorem accounted_start (store : RateLimiterStore) : Accounted store (fun _ ↦ ∅) 0 0 where
  counted _ key packed h := absurd h (by simp)
  granted_le _ _ := Nat.zero_le _

theorem Accounted.pays (h : Accounted store shards granted dropped) {i : ℕ} {shard : LimiterShard}
    {g : Multiset (String × ℕ)} {d : Multiset String} (hpays : Pays store (shards i) shard g d)
    (hg : ∀ p ∈ g, store.shardIndex p.1 = i) :
    Accounted store (Function.update shards i shard) (g + granted) (d + dropped) := by
  constructor
  · intro i'
    rcases eq_or_ne i' i with rfl | hne
    · rw [Function.update_self]
      exact hpays.counted
    · rw [Function.update_of_ne hne]
      exact h.counted i'
  · intro key k
    have hbefore := h.granted_le key k
    rw [Multiset.count_add, Multiset.count_add, Nat.mul_add]
    rcases eq_or_ne (store.shardIndex key) i with rfl | hne
    · have hpaid := hpays.paid key k
      rw [Function.update_self]
      omega
    · have hnone : g.count (key, k) = 0 :=
        Multiset.count_eq_zero_of_notMem fun hmem ↦ hne (hg _ hmem)
      rw [Function.update_of_ne hne, hnone]
      omega

/-- A key is granted its quota at most once for each life of its counter. -/
theorem Accounted.granted_le_lives (h : Accounted store shards granted dropped) (key : String)
    (k : ℕ) : granted.count (key, k) ≤ min store.rate countMask * (dropped.count key + 1) := by
  have hrec := store.counter.recorded_le _ (h.counted (store.shardIndex key) key) k
  calc granted.count (key, k)
      ≤ store.counter.maxRequests * dropped.count key +
          store.counter.recorded ((shards (store.shardIndex key)).lookup key) k :=
        h.granted_le key k
    _ ≤ store.counter.maxRequests * dropped.count key + store.counter.maxRequests :=
        Nat.add_le_add_left hrec _
    _ = min store.rate countMask * (dropped.count key + 1) := (Nat.mul_succ _ _).symm

theorem mem_grant {p : String × ℕ} {key : String} {w : ℕ} {allowed : Bool}
    (h : p ∈ (if allowed then {(key, w)} else 0 : Multiset (String × ℕ))) : p.1 = key := by
  rcases allowed with - | -
  · exact absurd h (Multiset.notMem_zero p)
  · exact congrArg Prod.fst (Multiset.mem_singleton.1 h)

/-- A call of one whom nobody disturbs, in order, keeps the account. -/
theorem Accounted.allow (h : Accounted store shards granted dropped) {key : String} {w : ℕ}
    (hw : ∀ packed ∈ (shards (store.shardIndex key)).lookup key, windowOf packed ≤ w)
    (victim : String) :
    Accounted store (store.allow shards key w victim).1
      ((if (store.allow shards key w victim).2 then {(key, w)} else 0) + granted)
      (store.evicted (shards (store.shardIndex key)) key victim + dropped) :=
  h.pays (pays_enter victim (h.counted _) hw) fun p hp ↦ by rw [mem_grant hp]

end Accounted

/-- A section leaves no window behind that is later than its own and than those of the shard. -/
theorem windowOf_enter_le {shard : LimiterShard} {key victim : String} {w bound : ℕ}
    (h : ∀ key, ∀ packed ∈ shard.lookup key, windowOf packed ≤ bound) (hw : w ≤ bound)
    (key' : String) :
    ∀ packed ∈ (store.enter shard key w victim).1.lookup key', windowOf packed ≤ bound := by
  have hallow : ∀ packed, windowOf packed ≤ bound →
      windowOf (store.counter.allow w packed).1 ≤ bound := fun packed hle ↦ by
    rw [FixedWindowCounter.allow]
    rcases hcons : store.counter.consume w 1 packed with - | packed'
    · exact hle
    · rwa [← (store.counter.consume_eq_some hcons).1] at hw
  intro packed hmem
  rcases hget : shard.lookup key with - | old
  · simp only [RateLimiterStore.enter, hget] at hmem
    rcases eq_or_ne key' key with rfl | hne
    · rw [Finmap.lookup_insert, Option.mem_some_iff] at hmem
      rw [← hmem]
      exact hallow 0 (by rw [show windowOf 0 = 0 from by decide]; exact Nat.zero_le _)
    · rw [Finmap.lookup_insert_of_ne _ hne] at hmem
      split_ifs at hmem
      · rcases eq_or_ne key' victim with rfl | hvictim
        · rw [Finmap.lookup_erase] at hmem
          cases hmem
        · rw [Finmap.lookup_erase_ne hvictim] at hmem
          exact h key' packed hmem
      · exact h key' packed hmem
  · simp only [RateLimiterStore.enter, hget] at hmem
    rcases eq_or_ne key' key with rfl | hne
    · rw [Finmap.lookup_insert, Option.mem_some_iff] at hmem
      rw [← hmem]
      exact hallow old (h key' old hget)
    · rw [Finmap.lookup_insert_of_ne _ hne] at hmem
      exact h key' packed hmem

/-! ### Runs -/

section Runs

variable {s s' : LimiterRun store} {op : LimiterOp}

/-! Each operation inverted. -/

theorem step?_tick {now : ℕ} (h : s.step? (.tick now) = some s') : s' = { s with clock := now } :=
  (Option.some.inj (Option.ite_none_right_eq_some.1 h).2).symm

theorem step?_look {key : String} (h : s.step? (.look key) = some s') :
    (key ∈ s.shards (store.shardIndex key) ∧
        s' = { s with reading := s.reading ++ [(key, s.windowNow)] }) ∨
      s' = { s with missed := s.missed ++ [key] } := by
  rw [step?] at h
  rcases hget : s.lookup key with - | packed
  · rw [hget] at h
    exact .inr (Option.some.inj h).symm
  · rw [hget] at h
    exact .inl ⟨Finmap.mem_of_lookup_eq_some hget, (Option.some.inj h).symm⟩

theorem step?_update {j : ℕ} (h : s.step? (.update j) = some s') :
    ∃ key w packed, s.reading[j]? = some (key, w) ∧ s.lookup key = some packed ∧
      s' = ({ s with reading := s.reading.eraseIdx j }.setShard (store.shardIndex key)
        ((s.shards (store.shardIndex key)).insert key (store.counter.allow w packed).1)).grant key w
          (store.counter.allow w packed).2 := by
  rw [step?] at h
  rcases hreading : s.reading[j]? with - | ⟨key, w⟩
  · rw [hreading] at h
    cases h
  · simp only [hreading] at h
    rcases hget : s.lookup key with - | packed
    · rw [show (s.shards (store.shardIndex key)).lookup key = none from hget] at h
      cases h
    · rw [show (s.shards (store.shardIndex key)).lookup key = some packed from hget] at h
      exact ⟨key, w, packed, rfl, hget, (Option.some.inj h).symm⟩

theorem step?_enter {j : ℕ} {victim : String} (h : s.step? (.enter j victim) = some s') :
    ∃ key i, s.missed[j]? = some key ∧ store.shardIndex key = i ∧ s.unread i = true ∧
      (store.atCapacity (s.shards i) → victim ∈ s.shards i) ∧
      s' = ({ s with
          missed := s.missed.eraseIdx j
          dropped := store.evicted (s.shards i) key victim + s.dropped }.setShard i
            (store.enter (s.shards i) key s.windowNow victim).1).grant key s.windowNow
              (store.enter (s.shards i) key s.windowNow victim).2 := by
  rw [step?] at h
  rcases hmissed : s.missed[j]? with - | key
  · rw [hmissed] at h
    cases h
  · rw [hmissed] at h
    obtain ⟨⟨hunread, hvictim⟩, hs'⟩ := Option.ite_none_right_eq_some.1 h
    exact ⟨key, _, rfl, rfl, hunread, hvictim, (Option.some.inj hs').symm⟩

theorem step?_reset {key : String} {readAt : ℕ} (h : s.step? (.reset key readAt) = some s') :
    s' = s ∨ ∃ i, store.shardIndex key = i ∧ key ∈ s.shards i ∧
      s' = { s with dropped := key ::ₘ s.dropped }.setShard i
        ((s.shards i).insert key (pack (store.counter.windowIndex readAt) 0)) := by
  rw [step?] at h
  by_cases hmem : key ∈ s.shards (store.shardIndex key)
  · rw [if_pos hmem] at h
    exact .inr ⟨_, rfl, hmem, (Option.some.inj h).symm⟩
  · rw [if_neg hmem] at h
    exact .inl (Option.some.inj h).symm

theorem step?_clear {i : ℕ} (h : s.step? (.clear i) = some s') :
    s.unread i = true ∧
      s' = { s with dropped := (s.shards i).keys.val + s.dropped }.setShard i ∅ := by
  obtain ⟨⟨-, hunread⟩, hs'⟩ := Option.ite_none_right_eq_some.1 h
  exact ⟨hunread, (Option.some.inj hs').symm⟩

/-! The locks. -/

/-- A shard holds its own keys and no more than it may, and the counter of a caller that holds the
read lock stays where it found it. -/
structure WellHeld (s : LimiterRun store) : Prop where
  home : ∀ i, ∀ key ∈ s.shards i, store.shardIndex key = i
  capacity : 0 < store.maxKeys → ∀ i, (s.shards i).keys.card ≤ store.maxKeys
  held : ∀ r ∈ s.reading, r.1 ∈ s.shards (store.shardIndex r.1)

theorem unread_iff {i : ℕ} :
    s.unread i = true ↔ ∀ r ∈ s.reading, store.shardIndex r.1 ≠ i := by
  simp [unread]

/-- A shard that changes under its lock. -/
theorem WellHeld.setShard (h : s.WellHeld) {i : ℕ} {shard : LimiterShard}
    (hshards : s'.shards = Function.update s.shards i shard) (hreading : s'.reading ⊆ s.reading)
    (hhome : ∀ key ∈ shard, store.shardIndex key = i)
    (hcapacity : 0 < store.maxKeys → shard.keys.card ≤ store.maxKeys)
    (hheld : ∀ r ∈ s.reading, store.shardIndex r.1 = i → r.1 ∈ shard) : s'.WellHeld := by
  constructor
  · intro i' key hmem
    rw [hshards] at hmem
    rcases eq_or_ne i' i with rfl | hne
    · rw [Function.update_self] at hmem
      exact hhome key hmem
    · rw [Function.update_of_ne hne] at hmem
      exact h.home i' key hmem
  · intro hmax i'
    rw [hshards]
    rcases eq_or_ne i' i with rfl | hne
    · rw [Function.update_self]
      exact hcapacity hmax
    · rw [Function.update_of_ne hne]
      exact h.capacity hmax i'
  · intro r hr
    rw [hshards]
    rcases eq_or_ne (store.shardIndex r.1) i with heq | hne
    · rw [heq, Function.update_self]
      exact hheld r (hreading hr) heq
    · rw [Function.update_of_ne hne]
      exact h.held r (hreading hr)

/-- A key of the shard that gets a new word. -/
theorem WellHeld.insert (h : s.WellHeld) {key : String} {packed : ℕ} {i : ℕ}
    (hi : store.shardIndex key = i) (hmem : key ∈ s.shards i)
    (hshards : s'.shards = Function.update s.shards i ((s.shards i).insert key packed))
    (hreading : s'.reading ⊆ s.reading) : s'.WellHeld := by
  refine h.setShard hshards hreading (fun key' hmem' ↦ ?_) (fun hmax ↦ ?_) fun r hr hri ↦ ?_
  · rcases Finmap.mem_insert.1 hmem' with rfl | hmem'
    · exact hi
    · exact h.home i key' hmem'
  · rw [keys_insert, Finset.insert_eq_of_mem (Finmap.mem_keys.2 hmem)]
    exact h.capacity hmax i
  · exact Finmap.mem_insert.2 (.inr (hri ▸ h.held r hr))

theorem WellHeld.step (h : s.WellHeld) (hstep : s.step? op = some s') : s'.WellHeld := by
  rcases op with now | key | j | ⟨j, victim⟩ | ⟨key, readAt⟩ | i
  · rw [step?_tick hstep]
    exact ⟨h.home, h.capacity, h.held⟩
  · obtain ⟨hmem, rfl⟩ | rfl := step?_look hstep
    · refine ⟨h.home, h.capacity, fun r hr ↦ ?_⟩
      rcases List.mem_append.1 hr with hr | hr
      · exact h.held r hr
      · rw [List.mem_singleton.1 hr]
        exact hmem
    · exact ⟨h.home, h.capacity, h.held⟩
  · obtain ⟨key, w, packed, -, hget, rfl⟩ := step?_update hstep
    exact h.insert rfl (Finmap.mem_of_lookup_eq_some hget) rfl (List.eraseIdx_subset ..)
  · obtain ⟨key, i, -, hi, hunread, hvictim, rfl⟩ := step?_enter hstep
    refine h.setShard rfl (List.Subset.refl _) (fun key' hmem ↦ ?_) (fun hmax ↦ ?_) fun r hr hri ↦
      absurd hri (unread_iff.1 hunread r hr)
    · rcases mem_enter hmem with rfl | hmem
      · exact hi
      · exact h.home i key' hmem
    · exact card_enter_le hmax (h.capacity hmax i) hvictim
  · obtain rfl | ⟨i, hi, hmem, rfl⟩ := step?_reset hstep
    · exact h
    · exact h.insert hi hmem rfl (List.Subset.refl _)
  · obtain ⟨hunread, rfl⟩ := step?_clear hstep
    refine h.setShard rfl (List.Subset.refl _) (fun key hmem ↦ absurd hmem Finmap.notMem_empty)
      (fun _ ↦ Nat.zero_le _) fun r hr hri ↦ absurd hri (unread_iff.1 hunread r hr)

/-! The quota. -/

/-- The account of a run. -/
def InAccount (s : LimiterRun store) : Prop := Accounted store s.shards s.granted s.dropped

theorem InAccount.step (h : s.InAccount) (hstep : s.step? op = some s')
    (hok : s.inOrder op = true) : s'.InAccount := by
  rcases op with now | key | j | ⟨j, victim⟩ | ⟨key, readAt⟩ | i
  · rw [step?_tick hstep]
    exact h
  · obtain ⟨-, rfl⟩ | rfl := step?_look hstep
    · exact h
    · exact h
  · obtain ⟨key, w, packed, hreading, hget, rfl⟩ := step?_update hstep
    have hw : windowOf packed ≤ w := by simpa [inOrder, hreading, hget] using hok
    have hpays := Accounted.pays h (pays_update (h.counted _) hget hw) fun p hp ↦ by
      rw [mem_grant hp]
    rwa [zero_add] at hpays
  · obtain ⟨key, i, hmissed, rfl, -, -, rfl⟩ := step?_enter hstep
    refine Accounted.allow h (fun packed hget ↦ ?_) victim
    have hget' : s.lookup key = some packed := hget
    simpa [inOrder, hmissed, hget'] using hok
  · obtain rfl | ⟨i, hi, -, rfl⟩ := step?_reset hstep
    · exact h
    · have hpays := Accounted.pays h (pays_reset (h.counted i) key readAt)
        fun p hp ↦ absurd hp (Multiset.notMem_zero p)
      rwa [zero_add] at hpays
  · obtain ⟨-, rfl⟩ := step?_clear hstep
    have hpays := Accounted.pays h (pays_clear (h.counted i))
      fun p hp ↦ absurd hp (Multiset.notMem_zero p)
    rwa [zero_add] at hpays

theorem wellHeld_invariant (store : RateLimiterStore) : (runs store).Invariant WellHeld where
  init s hs := by
    rw [show s = start store from hs]
    exact ⟨fun i key h ↦ absurd h Finmap.notMem_empty, fun _ _ ↦ Nat.zero_le _,
      fun r hr ↦ absurd hr List.not_mem_nil⟩
  step _ _ _ h hstep := h.step hstep

theorem inAccount_invariant (store : RateLimiterStore) :
    ((runs store).guard fun s op ↦ s.inOrder op = true).Invariant InAccount where
  init s hs := by
    rw [show s = start store from hs]
    exact accounted_start store
  step _ _ _ h hstep := h.step hstep.1 hstep.2

/-- **The quota of a key.** In every run whose calls come in the order of their windows, a key is
granted at most the store's rate in a window for each life of its counter. The counter of a caller
that has found it is there until the caller has updated it, and no shard grows past its cap. -/
theorem granted_within_lives
    (hs : ((runs store).guard fun s op ↦ s.inOrder op = true).Reachable s) :
    (∀ key k, s.granted.count (key, k) ≤ min store.rate countMask * (s.dropped.count key + 1)) ∧
      (∀ r ∈ s.reading, (s.lookup r.1).isSome) ∧
      (0 < store.maxKeys → ∀ i, (s.shards i).keys.card ≤ store.maxKeys) := by
  have hheld := (wellHeld_invariant store).of_reachable hs.of_guard
  have haccount := (inAccount_invariant store).of_reachable hs
  exact ⟨haccount.granted_le_lives, fun r hr ↦ Finmap.lookup_isSome.2 (hheld.held r hr),
    hheld.capacity⟩

/-- A caller whom nobody disturbs takes two steps, which do what `allow` says. -/
theorem allow_of_alone (hreading : s.reading = []) (hmissed : s.missed = []) {key victim : String}
    (hvictim : store.atCapacity (s.shards (store.shardIndex key)) →
      victim ∈ s.shards (store.shardIndex key)) :
    ∃ op, [.look key, op].foldlM step? s = some
      { s with
        shards := (store.allow s.shards key s.windowNow victim).1
        granted := (if (store.allow s.shards key s.windowNow victim).2 then {(key, s.windowNow)}
          else 0) + s.granted
        dropped := store.evicted (s.shards (store.shardIndex key)) key victim + s.dropped } := by
  obtain ⟨clock, shards, missed, reading, granted, dropped⟩ := s
  obtain rfl : reading = [] := hreading
  obtain rfl : missed = [] := hmissed
  rcases hget : (shards (store.shardIndex key)).lookup key with - | packed
  · refine ⟨.enter 0 victim, ?_⟩
    have hlook : step? (⟨clock, shards, [], [], granted, dropped⟩ : LimiterRun store) (.look key) =
        some ⟨clock, shards, [key], [], granted, dropped⟩ := by
      simp only [step?, lookup, hget]
      rfl
    have henter : step? (⟨clock, shards, [key], [], granted, dropped⟩ : LimiterRun store)
        (.enter 0 victim) = some _ := if_pos ⟨rfl, hvictim⟩
    rw [List.foldlM_cons, hlook]
    exact (bind_pure _).trans henter
  · refine ⟨.update 0, ?_⟩
    have hmem : ¬key ∉ shards (store.shardIndex key) :=
      not_not.2 (Finmap.mem_of_lookup_eq_some hget)
    have hlook : step? (⟨clock, shards, [], [], granted, dropped⟩ : LimiterRun store) (.look key) =
        some ⟨clock, shards, [], [(key, store.counter.windowIndex clock)], granted, dropped⟩ := by
      simp only [step?, lookup, hget]
      rfl
    rw [List.foldlM_cons, hlook, Option.bind_eq_bind, Option.bind_some, List.foldlM_cons]
    simp only [step?, List.getElem?_cons_zero, hget, RateLimiterStore.allow, RateLimiterStore.enter,
      RateLimiterStore.evicted, hmem, false_and, if_false, zero_add]
    rfl

/-- One shard for one key, which may be called once in a microsecond. -/
def oneKey : RateLimiterStore where
  rate := 1
  window := ⟨1000⟩
  maxKeys := 1
  numShards := 1
  hash _ := 0
  numShards_pos := Nat.zero_lt_one

/-- Two keys that take turns in a shard for one of them: each call evicts the other's counter, so
that the first is granted twice in one window. -/
theorem granted_within_lives_turns : ∃ s,
    ((runs oneKey).guard fun s op ↦ s.inOrder op = true).Reachable s ∧
      s.granted.count ("a", 0) = 2 ∧
      (∀ key k, s.granted.count (key, k) ≤ min oneKey.rate countMask * (s.dropped.count key + 1)) ∧
      (∀ r ∈ s.reading, (s.lookup r.1).isSome) ∧
      (0 < oneKey.maxKeys → ∀ i, (s.shards i).keys.card ≤ oneKey.maxKeys) := by
  obtain ⟨s, hs, hcount⟩ : ∃ s, ((runs oneKey).guard fun s op ↦ s.inOrder op = true).Reachable s ∧
      s.granted.count ("a", 0) = 2 :=
    ⟨_, TransitionSystem.reachable_guard_of_foldlM rfl
      [.look "a", .look "b", .look "a", .enter 0 "", .enter 0 "a", .enter 0 "b"] rfl, by decide⟩
  exact ⟨s, hs, hcount, granted_within_lives hs⟩

end Runs

end LimiterRun

end Himadri
