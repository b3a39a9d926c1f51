import Mathlib.Data.List.Nodup
import Mathlib.Data.List.Sort

/-!
# Pages of a list in two orders

A page of a list as it stands and the same page of the list sorted by descending keys. Where the
keys are distinct, an element comes after as many others in the sorted list as have greater keys
(`getElem?_descending`), so that the pages are the same exactly when each element of the page stands
there already (`page_descending_iff`). At the root namespace: nothing here belongs to one component.
-/

namespace Paging

variable {α κ : Type*} [LinearOrder κ] {key : α → κ} {l l' : List α}

/-- `skip` and `take`. -/
def page (offset limit : ℕ) (l : List α) : List α := (l.drop offset).take limit

variable (key) in
/-- The list, the greatest key first. -/
def descending (l : List α) : List α := l.insertionSort fun a b ↦ key b ≤ key a

/-- Each element of the page has as many greater ones as stand before it. -/
def InPlace (key : α → κ) (offset limit : ℕ) (l : List α) : Prop :=
  ∀ k a, offset ≤ k → k < offset + limit → l[k]? = some a →
    l.countP (fun b ↦ key a < key b) = k

theorem page_eq_iff (offset limit : ℕ) : page offset limit l = page offset limit l' ↔
    ∀ k, offset ≤ k → k < offset + limit → l[k]? = l'[k]? := by
  rw [List.ext_getElem?_iff]
  constructor
  · intro h k hoffset hlimit
    have hk := h (k - offset)
    rwa [page, page, List.getElem?_take_of_lt (by omega), List.getElem?_take_of_lt (by omega),
      List.getElem?_drop, List.getElem?_drop, show offset + (k - offset) = k by omega] at hk
  · intro h k
    rcases Nat.lt_or_ge k limit with hlt | hge
    · rw [page, page, List.getElem?_take_of_lt hlt, List.getElem?_take_of_lt hlt,
        List.getElem?_drop, List.getElem?_drop]
      exact h _ (by omega) (by omega)
    · rw [page, page, List.getElem?_take_eq_none hge, List.getElem?_take_eq_none hge]

/-- In a list with descending keys an element stands after those that have greater ones. -/
theorem getElem?_eq_some_iff (h : l.Pairwise fun a b ↦ key b < key a) {k : ℕ} {a : α} :
    l[k]? = some a ↔ a ∈ l ∧ l.countP (fun b ↦ key a < key b) = k := by
  induction l generalizing k with
  | nil => simp
  | cons b l ih =>
    obtain ⟨hb, hl⟩ := List.pairwise_cons.1 h
    have hhead : (b :: l).countP (fun c ↦ key b < key c) = 0 := by
      rw [List.countP_eq_zero]
      intro c hc
      rcases List.mem_cons.1 hc with rfl | hc
      · simp
      · simpa using (hb c hc).le
    -- an element of the tail counts the head beside the others
    have htail (ha : a ∈ l) : (b :: l).countP (fun c ↦ key a < key c) =
        l.countP (fun c ↦ key a < key c) + 1 :=
      List.countP_cons_of_pos (p := fun c ↦ key a < key c) (decide_eq_true (hb a ha))
    rcases k with - | k
    · rw [List.getElem?_cons_zero, Option.some_inj]
      constructor
      · rintro rfl
        exact ⟨List.mem_cons_self, hhead⟩
      · rintro ⟨ha, hcount⟩
        rcases List.mem_cons.1 ha with rfl | ha
        · rfl
        · rw [List.countP_eq_zero] at hcount
          exact absurd (decide_eq_true (hb a ha)) (hcount b List.mem_cons_self)
    · rw [List.getElem?_cons_succ, ih hl]
      constructor
      · rintro ⟨ha, rfl⟩
        exact ⟨List.mem_cons_of_mem b ha, htail ha⟩
      · rintro ⟨ha, hcount⟩
        rcases List.mem_cons.1 ha with rfl | ha
        · rw [hhead] at hcount
          omega
        · rw [htail ha] at hcount
          exact ⟨ha, by omega⟩

theorem pairwise_descending (h : (l.map key).Nodup) :
    (descending key l).Pairwise fun a b ↦ key b < key a := by
  have hsorted : (descending key l).Pairwise fun a b ↦ key b ≤ key a :=
    List.pairwise_insertionSort _ l
  have hdistinct : ((descending key l).map key).Nodup :=
    ((List.perm_insertionSort _ l).map key).nodup_iff.2 h
  rw [List.Nodup, List.pairwise_map] at hdistinct
  exact (hsorted.and hdistinct).imp fun hab ↦ lt_of_le_of_ne hab.1 (Ne.symm hab.2)

theorem getElem?_descending (h : (l.map key).Nodup) {k : ℕ} {a : α} :
    (descending key l)[k]? = some a ↔ a ∈ l ∧ l.countP (fun b ↦ key a < key b) = k := by
  rw [getElem?_eq_some_iff (pairwise_descending h), descending, List.mem_insertionSort,
    (List.perm_insertionSort _ l).countP_eq]

/-- **Both orders have the same page exactly when its elements are in place.** -/
theorem page_descending_iff (h : (l.map key).Nodup) (offset limit : ℕ) :
    page offset limit l = page offset limit (descending key l) ↔ InPlace key offset limit l := by
  rw [page_eq_iff]
  constructor
  · intro heq k a hoffset hlimit ha
    rw [heq k hoffset hlimit] at ha
    exact ((getElem?_descending h).1 ha).2
  · intro hplace k hoffset hlimit
    rcases ha : l[k]? with - | a
    · rw [List.getElem?_eq_none_iff] at ha
      symm
      rw [List.getElem?_eq_none_iff, descending, List.length_insertionSort]
      exact ha
    · symm
      rw [getElem?_descending h]
      exact ⟨List.mem_of_getElem? ha, hplace k a hoffset hlimit ha⟩

end Paging
