import Himadri.Core.Duration
import Himadri.Transition.System
import Mathlib.Data.Multiset.AddSub
import Mathlib.Tactic.Common

/-!
# The fixed-window counter of the rate-limit plugin

`FixedWindowCounter` packs the window index and the count of that window into one `AtomicU64`, so
that a rollover and a consumption are one compare-and-swap. A call reads the clock first, computes
its window index from it, and only then runs the `fetch_update`; between the two any number of other
callers may run. `WindowRun` is the shared word with the callers that are between their two steps.

The word remembers one window. An update whose index is below the stored one replaces the newer
window by an older one and forgets what the newer window had consumed. `InOrder` excludes exactly
such an update, and under it the word's count bounds what its window was granted
(`WindowRun.Bounded`), which is the quota.
-/

namespace Himadri

/-- `COUNT_MASK`: the low half of the packed word. -/
def countMask : ℕ := 0xFFFFFFFF

/-- The immutable fields of `FixedWindowCounter`; the packed word is the state of a run. -/
structure FixedWindowCounter where
  windowUs : ℕ
  maxRequests : ℕ
  windowUs_pos : 1 ≤ windowUs
  maxRequests_le : maxRequests ≤ countMask

/-! ### The packed word -/

/-- The window index of a packed word. -/
def windowOf (packed : ℕ) : ℕ := packed >>> 32

/-- The count of a packed word. -/
def countOf (packed : ℕ) : ℕ := packed &&& countMask

/-- `(w << 32) | count`. -/
def pack (w count : ℕ) : ℕ := (w <<< 32) ||| count

theorem countOf_eq_mod (packed : ℕ) : countOf packed = packed % UInt32.size :=
  Nat.and_two_pow_sub_one_eq_mod packed 32

theorem pack_eq_add {w count : ℕ} (h : count ≤ countMask) :
    pack w count = w * UInt32.size + count := by
  have hlt : count < UInt32.size := Nat.lt_succ_of_le h
  have hor := Nat.shiftLeft_add_eq_or_of_lt (i := 32) hlt w
  rw [pack, ← hor, Nat.shiftLeft_eq]

theorem windowOf_pack {w count : ℕ} (h : count ≤ countMask) : windowOf (pack w count) = w := by
  have hlt : count < UInt32.size := Nat.lt_succ_of_le h
  rw [windowOf, pack_eq_add h, Nat.shiftRight_eq_div_pow]
  change (w * UInt32.size + count) / UInt32.size = w
  rw [Nat.mul_comm, Nat.mul_add_div (by decide), Nat.div_eq_of_lt hlt, Nat.add_zero]

theorem countOf_pack {w count : ℕ} (h : count ≤ countMask) : countOf (pack w count) = count := by
  have hlt : count < UInt32.size := Nat.lt_succ_of_le h
  rw [countOf_eq_mod, pack_eq_add h, Nat.mul_add_mod_of_lt hlt]

namespace FixedWindowCounter

/-- `FixedWindowCounter::new`. -/
def new (maxRequests : ℕ) (window : Duration) : FixedWindowCounter where
  windowUs := max (window.asMicros % UInt64.size) 1
  maxRequests := min maxRequests countMask
  windowUs_pos := le_max_right _ _
  maxRequests_le := min_le_right _ _

variable (c : FixedWindowCounter)

/-- `window_index`. -/
def windowIndex (nowUs : ℕ) : ℕ := (nowUs / c.windowUs) &&& countMask

/-- The closure `allow_n` hands to `fetch_update`, for a caller whose window index is `w`. -/
def consume (w n packed : ℕ) : Option ℕ :=
  let count := if windowOf packed = w then countOf packed else 0
  let next := min (count + n) (UInt64.size - 1)
  if next ≤ c.maxRequests then some (pack w next) else none

/-- A successful update stores its own window, with at least one more request and at most the
quota. -/
theorem consume_eq_some {w n packed packed' : ℕ} (h : c.consume w n packed = some packed') :
    windowOf packed' = w ∧ countOf packed' ≤ c.maxRequests ∧
      countOf packed' = (if windowOf packed = w then countOf packed else 0) + n := by
  rw [consume] at h
  obtain ⟨hle, hpack⟩ := Option.ite_none_right_eq_some.1 h
  have hmax := c.maxRequests_le
  have hmask := hle.trans hmax
  rw [← Option.some.inj hpack, windowOf_pack hmask, countOf_pack hmask]
  have hroom : countMask < UInt64.size - 1 := by decide
  refine ⟨rfl, hle, ?_⟩
  omega

/-- A request of a window that is not stored goes through whenever the quota is not zero: it starts
its window from a zero count. -/
theorem consume_of_ne {w packed : ℕ} (h : windowOf packed ≠ w) (hmax : 0 < c.maxRequests) :
    c.consume w 1 packed = some (pack w 1) := by
  have hnext : min (0 + 1) (UInt64.size - 1) = 1 := by decide
  simp only [consume, if_neg h, hnext]
  exact if_pos hmax

end FixedWindowCounter

/-! ### Interleaved callers -/

/-- The shared word, the clock, the window indices of the callers that have read the clock and not
yet updated the word, and the window indices of the calls that were granted. -/
structure WindowRun where
  packed : ℕ
  clock : ℕ
  waiting : Multiset ℕ
  granted : Multiset ℕ
  deriving DecidableEq

/-- The two steps of `allow`. -/
inductive WindowOp
  /-- A caller reads the monotonic clock and computes its window index. -/
  | read (nowUs : ℕ)
  /-- A caller with window index `w` runs its `fetch_update`. -/
  | update (w : ℕ)

namespace WindowRun

/-- A fresh counter without callers. -/
def start : WindowRun := ⟨0, 0, 0, 0⟩

variable (c : FixedWindowCounter) (s : WindowRun)

/-- One step. `allow` is `allow_n(1)`; it returns true exactly when the update stored a word. -/
def step? : WindowOp → Option WindowRun
  | .read nowUs =>
    if s.clock ≤ nowUs then
      some { s with clock := nowUs, waiting := c.windowIndex nowUs ::ₘ s.waiting }
    else none
  | .update w =>
    if w ∈ s.waiting then
      match c.consume w 1 s.packed with
      | some packed =>
        some { s with packed, waiting := s.waiting.erase w, granted := w ::ₘ s.granted }
      | none => some { s with waiting := s.waiting.erase w }
    else none

/-- Any number of callers, in any order. -/
def runs : TransitionSystem WindowRun WindowOp := .ofPartial (· = start) (step? c)

/-- No update carries a window index below the one the word stores. -/
def InOrder : WindowOp → Prop
  | .update w => windowOf s.packed ≤ w
  | .read _ => True

instance : ∀ op, Decidable (s.InOrder op)
  | .update w => inferInstanceAs (Decidable (windowOf s.packed ≤ w))
  | .read _ => inferInstanceAs (Decidable True)

/-- The step keeps what the word has recorded: the stored window does not go back, and within one
window the count does not go down. -/
def Keeps (s s' : WindowRun) : Prop :=
  windowOf s.packed ≤ windowOf s'.packed ∧
    (windowOf s.packed = windowOf s'.packed → countOf s.packed ≤ countOf s'.packed)

/-- What was granted is bounded by what the word has counted. -/
structure Bounded : Prop where
  granted_le : ∀ k ∈ s.granted, k ≤ windowOf s.packed
  stored : s.granted.count (windowOf s.packed) ≤ countOf s.packed
  quota : ∀ k, s.granted.count k ≤ c.maxRequests
  /-- A word past the first window was stored by a grant. -/
  past : 0 < windowOf s.packed → 0 < c.maxRequests

variable {c} {s} {s' : WindowRun}

theorem step?_read {nowUs : ℕ} (h : s.step? c (.read nowUs) = some s') :
    s' = { s with clock := nowUs, waiting := c.windowIndex nowUs ::ₘ s.waiting } :=
  (Option.some.inj (Option.ite_none_right_eq_some.1 h).2).symm

theorem step?_update {w : ℕ} (h : s.step? c (.update w) = some s') :
    (∃ packed, c.consume w 1 s.packed = some packed ∧
      s' = { s with packed, waiting := s.waiting.erase w, granted := w ::ₘ s.granted }) ∨
    (c.consume w 1 s.packed = none ∧ s' = { s with waiting := s.waiting.erase w }) := by
  have hstep := (Option.ite_none_right_eq_some.1 h).2
  cases hcons : c.consume w 1 s.packed with
  | some packed =>
    rw [hcons] at hstep
    exact .inl ⟨packed, rfl, (Option.some.inj hstep).symm⟩
  | none =>
    rw [hcons] at hstep
    exact .inr ⟨rfl, (Option.some.inj hstep).symm⟩

/-- An update in order keeps the bound: it either rolls the word over to a window nobody was granted
in, or counts itself where its window is already stored. -/
theorem Bounded.grant {w packed : ℕ} (h : s.Bounded c) (hw : windowOf s.packed ≤ w)
    (hcons : c.consume w 1 s.packed = some packed) :
    Bounded c { s with packed, waiting := s.waiting.erase w, granted := w ::ₘ s.granted } := by
  obtain ⟨hwin, hle, hcount⟩ := c.consume_eq_some hcons
  have hself : (w ::ₘ s.granted).count w ≤ countOf packed := by
    rw [Multiset.count_cons_self, hcount]
    rcases eq_or_ne (windowOf s.packed) w with heq | hne
    · rw [if_pos heq, ← heq]
      exact Nat.succ_le_succ h.stored
    · have hfresh : w ∉ s.granted := fun hmem ↦ hne (le_antisymm hw (h.granted_le w hmem))
      rw [Multiset.count_eq_zero_of_notMem hfresh]
      exact Nat.succ_le_succ (Nat.zero_le _)
  refine ⟨fun k hk ↦ ?_, ?_, fun k ↦ ?_, fun _ ↦ ?_⟩
  · rw [hwin]
    rcases Multiset.mem_cons.1 hk with rfl | hk
    · exact le_rfl
    · exact (h.granted_le k hk).trans hw
  · rwa [hwin]
  · rcases eq_or_ne k w with rfl | hne
    · exact hself.trans hle
    · rw [Multiset.count_cons_of_ne hne]
      exact h.quota k
  · change countOf packed ≤ c.maxRequests at hle
    omega

theorem Bounded.step {op : WindowOp} (h : s.Bounded c) (hok : s.InOrder op)
    (hstep : s.step? c op = some s') : s'.Bounded c := by
  cases op with
  | read nowUs =>
    rw [step?_read hstep]
    exact ⟨h.granted_le, h.stored, h.quota, h.past⟩
  | update w =>
    obtain ⟨packed, hcons, rfl⟩ | ⟨-, rfl⟩ := step?_update hstep
    · exact h.grant hok hcons
    · exact ⟨h.granted_le, h.stored, h.quota, h.past⟩

theorem bounded_invariant (c : FixedWindowCounter) :
    ((runs c).guard InOrder).Invariant (Bounded c) where
  init s hs := by
    rw [show s = start from hs]
    refine ⟨by simp [start], by simp [start], by simp [start], fun h ↦ ?_⟩
    exact absurd h (by decide)
  step _ _ _ h hstep := h.step hstep.2 hstep.1

/-- An update in order never erases consumption the word has recorded. -/
theorem keeps_of_inOrder {op : WindowOp} (hok : s.InOrder op) (hstep : s.step? c op = some s') :
    Keeps s s' := by
  cases op with
  | read nowUs =>
    rw [step?_read hstep]
    exact ⟨le_rfl, fun _ ↦ le_rfl⟩
  | update w =>
    obtain ⟨packed, hcons, rfl⟩ | ⟨-, rfl⟩ := step?_update hstep
    · obtain ⟨hwin, -, hcount⟩ := c.consume_eq_some hcons
      refine ⟨hwin ▸ hok, fun heq ↦ ?_⟩
      rw [hwin] at heq
      simp [hcount, heq]
    · exact ⟨le_rfl, fun _ ↦ le_rfl⟩

/-- An update out of order rolls the word back to its older window. -/
theorem not_keeps_of_not_inOrder {op : WindowOp} (hs : s.Bounded c) (hok : ¬ s.InOrder op)
    (hstep : s.step? c op = some s') : ¬ Keeps s s' := by
  cases op with
  | read nowUs => exact absurd trivial hok
  | update w =>
    have hlt : w < windowOf s.packed := Nat.not_le.1 hok
    have hmax := hs.past (Nat.zero_lt_of_lt hlt)
    have hpack := c.consume_of_ne hlt.ne' hmax
    obtain ⟨packed, hcons, rfl⟩ | ⟨hcons, -⟩ := step?_update hstep
    · intro hkeeps
      obtain ⟨hwin, -, -⟩ := c.consume_eq_some hcons
      have hback := hkeeps.1
      rw [hwin] at hback
      omega
    · rw [hpack] at hcons
      simp at hcons

/-- **The fixed-window quota.** In every run whose updates arrive in window order, each window has
granted at most `max_requests` calls; and a further step erases nothing the word has recorded
exactly when it is in order too. -/
theorem quota_of_inOrder (hs : ((runs c).guard InOrder).Reachable s) :
    (∀ k, s.granted.count k ≤ c.maxRequests) ∧
      ∀ op s', (runs c).Step s op s' → (Keeps s s' ↔ s.InOrder op) := by
  have hb := (bounded_invariant c).of_reachable hs
  refine ⟨hb.quota, fun op s' hstep ↦ ⟨fun hk ↦ ?_, fun hok ↦ keeps_of_inOrder hok hstep⟩⟩
  by_contra hok
  exact not_keeps_of_not_inOrder hb hok hstep hk

/-- One request in each window of one microsecond. -/
def oneEachMicro : FixedWindowCounter := .new 1 ⟨1000⟩

/-- The schedule of a caller delayed across the boundary: it reads the clock in window 0 and updates
after window 1 has spent its only request, whose rollover then lets window 1 spend another. -/
def delayedCaller : List WindowOp :=
  [.read 0, .read 1, .update 1, .update 0, .read 1, .update 1]

/-- Two calls of window 1 are granted against a quota of one. -/
theorem delayedCaller_exceeds :
    ∃ s, (runs oneEachMicro).Reachable s ∧ oneEachMicro.maxRequests < s.granted.count 1 := by
  refine ⟨_, TransitionSystem.reachable_of_foldlM rfl delayedCaller rfl, ?_⟩
  decide

/-- The same callers in window order: the quota holds. -/
theorem quota_of_inOrder_orderly :
    ∃ s, ((runs oneEachMicro).guard InOrder).Reachable s ∧
      (∀ k, s.granted.count k ≤ oneEachMicro.maxRequests) ∧
        ∀ op s', (runs oneEachMicro).Step s op s' → (Keeps s s' ↔ s.InOrder op) := by
  have hs : ((runs oneEachMicro).guard InOrder).Reachable
      ⟨pack 1 1, 1, {1}, {1, 0}⟩ :=
    TransitionSystem.reachable_guard_of_foldlM rfl
      [.read 0, .read 1, .update 0, .update 1, .read 1] (by decide)
  exact ⟨_, hs, quota_of_inOrder hs⟩

end WindowRun

end Himadri
