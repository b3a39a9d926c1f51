import Himadri.Core.KeyMap

/-!
# Entries that expire

A cache whose entries have a time to live: an entry is answered only as long as that time has not
passed since it was written, and writing it again restarts the time. It may also go earlier
(`ExpiringMap.evict`).

Writing a key again and again keeps it alive for longer than one time to live. How long a key has
been alive without a break is kept by its *chain* of writes (`WriteChain`), which goes on as long as
each write comes within the time to live of the one before; a map is tracked by the chains of its
keys (`ExpiringMap.Tracks`).

At the root namespace: nothing here knows what is cached.
-/

/-- A cache with a time to live: every entry beside the time it was last written. -/
structure ExpiringMap (κ α : Type*) where
  entries : KeyMap κ (α × ℕ)

/-- An unbroken chain of writes of one key: when it began and when it was last continued. -/
structure WriteChain where
  first : ℕ
  last : ℕ

namespace ExpiringMap

variable {κ α : Type*}

/-- The cache without entries. -/
def empty : ExpiringMap κ α := ⟨.empty⟩

section Get

variable (m : ExpiringMap κ α) (ttl now : ℕ) (k : κ)

/-- What the cache answers at a time. -/
def get : Option α :=
  (m.entries.get k).bind fun e ↦ if now < e.2 + ttl then some e.1 else none

variable {m ttl now k}

theorem get_eq_some {v : α} :
    m.get ttl now k = some v ↔ ∃ t, m.entries.get k = some (v, t) ∧ now < t + ttl := by
  rw [get, Option.bind_eq_some_iff]
  constructor
  · rintro ⟨⟨v', t⟩, hentry, hlive⟩
    obtain ⟨hnow, hv⟩ := Option.ite_none_right_eq_some.1 hlive
    obtain rfl : v' = v := Option.some.inj hv
    exact ⟨t, hentry, hnow⟩
  · rintro ⟨t, hentry, hnow⟩
    exact ⟨(v, t), hentry, if_pos hnow⟩

end Get

variable [DecidableEq κ]

/-- Write an entry; its time to live starts anew. -/
def insert (m : ExpiringMap κ α) (k : κ) (v : α) (now : ℕ) : ExpiringMap κ α :=
  ⟨m.entries.insert k (v, now)⟩

/-- Drop an entry before its time. -/
def evict (m : ExpiringMap κ α) (k : κ) : ExpiringMap κ α := ⟨m.entries.remove k⟩

/-! ### Facts about every value -/

/-- Every value in the cache has a property. -/
def All (P : α → Prop) (m : ExpiringMap κ α) : Prop :=
  ∀ k v t, m.entries.get k = some (v, t) → P v

variable {P : α → Prop} {m : ExpiringMap κ α} {k : κ} {v : α} {ttl now : ℕ}

omit [DecidableEq κ] in
theorem All.get (h : All P m) (hget : m.get ttl now k = some v) : P v := by
  obtain ⟨t, hentry, -⟩ := get_eq_some.1 hget
  exact h k v t hentry

theorem All.insert (h : All P m) (hv : P v) : All P (m.insert k v now) := by
  intro k' v' t hentry
  rcases eq_or_ne k' k with rfl | hne
  · obtain ⟨rfl, -⟩ :=
      Prod.ext_iff.1 (Option.some.inj ((KeyMap.get_insert_self ..).symm.trans hentry))
    exact hv
  · exact h k' v' t ((KeyMap.get_insert_of_ne hne).symm.trans hentry)

theorem All.evict (h : All P m) : All P (m.evict k) := by
  intro k' v t hentry
  refine h k' v t ?_
  rw [ExpiringMap.evict, KeyMap.get_remove] at hentry
  exact (Option.ite_none_left_eq_some.1 hentry).2

end ExpiringMap

/-! ### Chains of writes -/

namespace WriteChain

variable {κ : Type*} (chains : KeyMap κ WriteChain) (ttl now : ℕ) (k : κ)

/-- When the chain that is still going on began. -/
def going : Option ℕ :=
  (chains.get k).bind fun c ↦ if now < c.last + ttl then some c.first else none

/-- The chains after a write of the key. -/
def write [DecidableEq κ] : KeyMap κ WriteChain :=
  chains.insert k ⟨(going chains ttl now k).getD now, now⟩

variable {chains ttl now k}

theorem going_eq_some {first : ℕ} : going chains ttl now k = some first ↔
    ∃ c, chains.get k = some c ∧ now < c.last + ttl ∧ c.first = first := by
  rw [going, Option.bind_eq_some_iff]
  exact exists_congr fun c ↦ and_congr_right fun _ ↦ by
    rw [Option.ite_none_right_eq_some, Option.some_inj]

/-- Every chain began in the past. -/
def Past (now : ℕ) (chains : KeyMap κ WriteChain) : Prop :=
  ∀ k c, chains.get k = some c → c.first ≤ now

theorem Past.mono {now' : ℕ} (h : Past now chains) (hle : now ≤ now') : Past now' chains :=
  fun k c hc ↦ Nat.le_trans (h k c hc) hle

theorem Past.going_le {first : ℕ} (h : Past now chains)
    (hgoing : going chains ttl now k = some first) : first ≤ now := by
  obtain ⟨c, hc, -, rfl⟩ := going_eq_some.1 hgoing
  exact h k c hc

theorem Past.going_getD_le (h : Past now chains) : (going chains ttl now k).getD now ≤ now := by
  cases hgoing : going chains ttl now k with
  | none => exact Nat.le_refl _
  | some first => exact h.going_le hgoing

theorem Past.write [DecidableEq κ] (h : Past now chains) : Past now (write chains ttl now k) := by
  intro k' c hc
  rcases eq_or_ne k' k with rfl | hne
  · obtain rfl := Option.some.inj ((KeyMap.get_insert_self ..).symm.trans hc)
    exact h.going_getD_le
  · exact h k' c ((KeyMap.get_insert_of_ne hne).symm.trans hc)

end WriteChain

namespace ExpiringMap

variable {κ α : Type*}

/-- Every entry was written last where its chain ends, and its value dates from no earlier than
where its chain begins. -/
def Tracks (since : α → ℕ) (chains : KeyMap κ WriteChain) (m : ExpiringMap κ α) : Prop :=
  KeyMap.Linked (fun _ e c ↦ e.2 = c.last ∧ c.first ≤ since e.1) m.entries chains

variable {since : α → ℕ} {chains : KeyMap κ WriteChain} {m : ExpiringMap κ α} {ttl now : ℕ} {k : κ}
  {v : α}

/-- What a tracked map answers is within a chain that is going on. -/
theorem Tracks.get (h : Tracks since chains m) (hget : m.get ttl now k = some v) :
    ∃ first, WriteChain.going chains ttl now k = some first ∧ first ≤ since v := by
  obtain ⟨t, hentry, hnow⟩ := get_eq_some.1 hget
  obtain ⟨c, hc, hlast, hfirst⟩ := h k (v, t) hentry
  refine ⟨c.first, WriteChain.going_eq_some.2 ⟨c, hc, ?_, rfl⟩, hfirst⟩
  rwa [← hlast]

variable [DecidableEq κ]

theorem Tracks.insert (h : Tracks since chains m)
    (hv : (WriteChain.going chains ttl now k).getD now ≤ since v) :
    Tracks since (WriteChain.write chains ttl now k) (m.insert k v now) :=
  KeyMap.Linked.insert h ⟨rfl, hv⟩

theorem Tracks.evict (h : Tracks since chains m) : Tracks since chains (m.evict k) :=
  KeyMap.Linked.removeAll h [k]

end ExpiringMap
