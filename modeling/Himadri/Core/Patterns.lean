import Mathlib.Data.List.Infix
import Mathlib.Data.List.TakeWhile

/-!
# Patterns and their replacement

Patterns that are sequences of bounded runs of letters, the leftmost-first search for them, and the
replacement of what is found by a placeholder. A placeholder stands between two delimiters that no
pattern accepts. So a match never reaches into a placeholder that an earlier replacement has put
into the text, or across one, and the only new text a pattern can match in is the inside of a
placeholder. Where it does not match there either, replacing the matches of several patterns one
after the other leaves no match of any (`clean_replaceEach`), does nothing the second time
(`replaceEach_idempotent`), and changes pieces of the original text only (`replaced_replaceEach`).

At the root namespace: nothing here knows what a letter is.
-/

namespace Patterns

variable {α : Type*}

/-- Letters of a class, at least so many and, if there is a bound, at most so many. -/
structure Run (α : Type*) where
  accepts : α → Bool
  least : ℕ
  most : Option ℕ

namespace Run

/-- One letter. -/
def one (accepts : α → Bool) : Run α := ⟨accepts, 1, some 1⟩

/-- At least `n` letters. -/
def atLeast (n : ℕ) (accepts : α → Bool) : Run α := ⟨accepts, n, none⟩

/-- `n` letters. -/
def exactly (n : ℕ) (accepts : α → Bool) : Run α := ⟨accepts, n, some n⟩

/-- The words a run stands for. -/
def Covers (r : Run α) (w : List α) : Prop :=
  (∀ a ∈ w, r.accepts a = true) ∧ r.least ≤ w.length ∧ ∀ m ∈ r.most, w.length ≤ m

/-- The longest that a run can be at the start of a text, were there no lower bound. -/
def longest (r : Run α) (s : List α) : ℕ :=
  match r.most with
  | none => (s.takeWhile r.accepts).length
  | some m => min m (s.takeWhile r.accepts).length

/-- The lengths of the run at the start of a text, the longest first. -/
def lengths (r : Run α) (s : List α) : List ℕ :=
  ((List.range (r.longest s + 1)).filter fun n ↦ decide (r.least ≤ n)).reverse

end Run

/-- The words of a sequence of runs. -/
def Matches : List (Run α) → List α → Prop
  | [], w => w = []
  | r :: runs, w => ∃ u v, w = u ++ v ∧ r.Covers u ∧ Matches runs v

/-- The length of the match at the start of a text: each run is as long as it can be for the rest
still to match. -/
def matchLength : List (Run α) → List α → Option ℕ
  | [], _ => some 0
  | r :: runs, s => (r.lengths s).findSome? fun n ↦ (matchLength runs (s.drop n)).map (n + ·)

section Matching

variable {r : Run α} {runs : List (Run α)} {s w : List α} {n : ℕ}

theorem le_length_takeWhile {p : α → Bool} :
    n ≤ (s.takeWhile p).length ↔ n ≤ s.length ∧ ∀ a ∈ s.take n, p a = true := by
  induction s generalizing n with
  | nil => simp
  | cons a s ih =>
    rcases n with _ | n
    · simp
    · rw [List.take_succ_cons, List.forall_mem_cons, List.length_cons, Nat.succ_le_succ_iff]
      rcases ha : p a with _ | _
      · rw [List.takeWhile_cons_of_neg (by simp [ha])]
        simp
      · rw [List.takeWhile_cons_of_pos ha, List.length_cons, Nat.succ_le_succ_iff, ih]
        simp

theorem mem_lengths : n ∈ r.lengths s ↔ n ≤ s.length ∧ r.Covers (s.take n) := by
  have hlongest : n ≤ r.longest s ↔
      n ≤ (s.takeWhile r.accepts).length ∧ ∀ m ∈ r.most, n ≤ m := by
    rw [Run.longest]
    rcases r.most with _ | m
    · simp
    · rw [Nat.le_min, and_comm]
      simp
  rw [Run.lengths, List.mem_reverse, List.mem_filter, List.mem_range, Nat.lt_succ_iff, hlongest,
    le_length_takeWhile, decide_eq_true_iff, Run.Covers]
  constructor
  · rintro ⟨⟨⟨hn, haccepts⟩, hmost⟩, hleast⟩
    rw [List.length_take_of_le hn]
    exact ⟨hn, haccepts, hleast, hmost⟩
  · rintro ⟨hn, haccepts, hleast, hmost⟩
    rw [List.length_take_of_le hn] at hleast hmost
    exact ⟨⟨⟨hn, haccepts⟩, hmost⟩, hleast⟩

theorem matches_of_matchLength (h : matchLength runs s = some n) :
    n ≤ s.length ∧ Matches runs (s.take n) := by
  induction runs generalizing s n with
  | nil =>
    rw [matchLength, Option.some.injEq] at h
    subst h
    exact ⟨Nat.zero_le _, List.take_zero⟩
  | cons r runs ih =>
    rw [matchLength] at h
    obtain ⟨m, hm, hsome⟩ := List.exists_of_findSome?_eq_some h
    obtain ⟨k, hk, rfl⟩ := Option.map_eq_some_iff.1 hsome
    obtain ⟨hle, hcovers⟩ := mem_lengths.1 hm
    obtain ⟨hrest, hmatches⟩ := ih hk
    rw [List.length_drop] at hrest
    exact ⟨by omega, s.take m, (s.drop m).take k, List.take_add, hcovers, hmatches⟩

theorem matchLength_isSome (h : Matches runs w) (v : List α) :
    (matchLength runs (w ++ v)).isSome = true := by
  induction runs generalizing w v with
  | nil => rfl
  | cons r runs ih =>
    obtain ⟨u, u', rfl, hcovers, hmatches⟩ := h
    have hmem : u.length ∈ r.lengths (u ++ u' ++ v) := by
      rw [mem_lengths, List.append_assoc, List.take_left, List.length_append]
      exact ⟨Nat.le_add_right .., hcovers⟩
    rw [matchLength, List.findSome?_isSome_iff]
    refine ⟨u.length, hmem, ?_⟩
    rw [Option.isSome_map, List.append_assoc, List.drop_left]
    exact ih hmatches v

/-- The letters of a match are letters of its runs. -/
theorem Matches.accepts (h : Matches runs w) : ∀ a ∈ w, ∃ r ∈ runs, r.accepts a = true := by
  induction runs generalizing w with
  | nil =>
    intro a ha
    rw [h] at ha
    exact absurd ha List.not_mem_nil
  | cons r runs ih =>
    obtain ⟨u, v, rfl, hcovers, hmatches⟩ := h
    intro a ha
    rcases List.mem_append.1 ha with hu | hv
    · exact ⟨r, List.mem_cons_self, hcovers.1 a hu⟩
    · obtain ⟨r', hr', haccepts⟩ := ih hmatches a hv
      exact ⟨r', List.mem_cons_of_mem r hr', haccepts⟩

theorem Matches.ne_nil (h : Matches runs w) (hruns : ∃ r ∈ runs, 0 < r.least) : w ≠ [] := by
  induction runs generalizing w with
  | nil =>
    obtain ⟨r, hr, -⟩ := hruns
    exact absurd hr List.not_mem_nil
  | cons r runs ih =>
    obtain ⟨u, v, rfl, hcovers, hmatches⟩ := h
    obtain ⟨r', hr', hpos⟩ := hruns
    rcases List.mem_cons.1 hr' with rfl | hmem
    · have hlength := hpos.trans_le hcovers.2.1
      exact List.append_ne_nil_of_left_ne_nil (List.ne_nil_of_length_pos hlength) v
    · exact List.append_ne_nil_of_right_ne_nil u (ih hmatches ⟨r', hmem, hpos⟩)

end Matching

/-! ### Infixes that avoid a letter -/

section Infixes

variable {w u v : List α} {c : α}

theorem prefix_of_prefix_append_cons (hc : c ∉ w) (h : w <+: u ++ c :: v) : w <+: u := by
  rcases List.prefix_or_prefix_of_prefix h (List.prefix_append u (c :: v)) with hle | ⟨x, rfl⟩
  · exact hle
  · rw [List.prefix_append_right_inj] at h
    rcases x with _ | ⟨a, x⟩
    · rw [List.append_nil]
    · obtain ⟨rfl, -⟩ := List.cons_prefix_cons.1 h
      exact absurd (List.mem_append_right u List.mem_cons_self) hc

theorem infix_of_infix_append_cons (hc : c ∉ w) (h : w <:+: u ++ c :: v) :
    w <:+: u ∨ w <:+: v := by
  induction u with
  | nil =>
    rcases List.infix_cons_iff.1 h with hstart | hin
    · exact .inl (prefix_of_prefix_append_cons hc hstart).isInfix
    · exact .inr hin
  | cons a u ih =>
    rcases List.infix_cons_iff.1 h with hstart | hin
    · exact .inl (prefix_of_prefix_append_cons hc hstart).isInfix
    · exact (ih hin).imp_left List.infix_cons

theorem length_lt_append (hw : w ≠ []) (v : List α) : v.length < (w ++ v).length := by
  rw [List.length_append]
  exact Nat.lt_add_of_pos_left (List.length_pos_iff.2 hw)

end Infixes

/-! ### Replacement -/

/-- A pattern without empty matches, and what stands between the delimiters of its placeholder. The
delimiters are in no match. -/
structure Rule (opening closing : α) where
  runs : List (Run α)
  label : List α
  nonempty : ∃ r ∈ runs, 0 < r.least
  avoids : ∀ r ∈ runs, r.accepts opening = false ∧ r.accepts closing = false

variable {opening closing : α}

namespace Rule

def Matches (rule : Rule opening closing) (w : List α) : Prop := Patterns.Matches rule.runs w

def placeholder (rule : Rule opening closing) : List α := opening :: (rule.label ++ [closing])

/-- The text after a replacement, from inside a match that has as many letters left. -/
def replaceFrom (rule : Rule opening closing) : ℕ → List α → List α
  | _, [] => []
  | left + 1, _ :: s => replaceFrom rule left s
  | 0, a :: s =>
    match matchLength rule.runs (a :: s) with
    | some n => rule.placeholder ++ replaceFrom rule (n - 1) s
    | none => a :: replaceFrom rule 0 s

/-- Replace the leftmost matches that do not overlap. -/
def replaceAll (rule : Rule opening closing) (s : List α) : List α := rule.replaceFrom 0 s

/-- The pattern matches nowhere in the text. -/
def Clean (rule : Rule opening closing) (s : List α) : Prop := ∀ w, w <:+: s → ¬rule.Matches w

variable {rule : Rule opening closing} {s t w : List α}

theorem Matches.opening_notMem (h : rule.Matches w) : opening ∉ w := fun hmem ↦ by
  obtain ⟨r, hr, haccepts⟩ := Patterns.Matches.accepts h opening hmem
  exact Bool.false_ne_true ((rule.avoids r hr).1.symm.trans haccepts)

theorem Matches.closing_notMem (h : rule.Matches w) : closing ∉ w := fun hmem ↦ by
  obtain ⟨r, hr, haccepts⟩ := Patterns.Matches.accepts h closing hmem
  exact Bool.false_ne_true ((rule.avoids r hr).2.symm.trans haccepts)

theorem Matches.ne_nil (h : rule.Matches w) : w ≠ [] := Patterns.Matches.ne_nil h rule.nonempty

@[simp] theorem replaceAll_nil : rule.replaceAll [] = [] := rfl

theorem replaceFrom_length (rule : Rule opening closing) (w s : List α) :
    rule.replaceFrom w.length (w ++ s) = rule.replaceAll s := by
  induction w with
  | nil => rfl
  | cons a w ih => exact ih

/-- What is done at the start of a text. -/
theorem replaceAll_cases (rule : Rule opening closing) (s : List α) :
    s = [] ∨
    (∃ w t, rule.Matches w ∧ s = w ++ t ∧
      rule.replaceAll s = rule.placeholder ++ rule.replaceAll t) ∨
    ∃ a t, (∀ w, w <+: a :: t → ¬rule.Matches w) ∧ s = a :: t ∧
      rule.replaceAll s = a :: rule.replaceAll t := by
  rcases s with _ | ⟨a, t⟩
  · exact .inl rfl
  · rcases hmatch : matchLength rule.runs (a :: t) with _ | n
    · refine .inr (.inr ⟨a, t, ?_, rfl, ?_⟩)
      · rintro w ⟨v, hv⟩ hw
        have hsome := matchLength_isSome hw v
        rw [hv, hmatch] at hsome
        exact Bool.false_ne_true hsome
      · rw [replaceAll, replaceFrom, hmatch]
        rfl
    · obtain ⟨hle, hmatches⟩ := matches_of_matchLength hmatch
      have hne : (a :: t).take n ≠ [] := Patterns.Matches.ne_nil hmatches rule.nonempty
      rcases n with _ | n
      · exact absurd List.take_zero hne
      · refine .inr (.inl ⟨(a :: t).take (n + 1), t.drop n, hmatches, ?_, ?_⟩)
        · rw [List.take_succ_cons, List.cons_append, List.take_append_drop]
        · have hlength : (t.take n).length = n :=
            List.length_take_of_le (Nat.le_of_succ_le_succ hle)
          have hrest := replaceFrom_length rule (t.take n) (t.drop n)
          rw [hlength, List.take_append_drop] at hrest
          rw [replaceAll, replaceFrom, hmatch, ← hrest]
          rfl

/-- The text is taken letter by letter, a match as a whole. -/
theorem replaceAll_induction {motive : List α → Prop} (rule : Rule opening closing)
    (nil : motive [])
    (matched : ∀ w t, rule.Matches w →
      rule.replaceAll (w ++ t) = rule.placeholder ++ rule.replaceAll t → motive t → motive (w ++ t))
    (kept : ∀ a t, (∀ w, w <+: a :: t → ¬rule.Matches w) →
      rule.replaceAll (a :: t) = a :: rule.replaceAll t → motive t → motive (a :: t))
    (s : List α) : motive s := by
  induction hn : s.length using Nat.strong_induction_on generalizing s with
  | _ n ih =>
    subst hn
    rcases replaceAll_cases rule s with rfl | ⟨w, t, hw, rfl, hall⟩ | ⟨a, t, hnone, rfl, hall⟩
    · exact nil
    · exact matched w t hw hall (ih t.length (length_lt_append hw.ne_nil t) t rfl)
    · exact kept a t hnone hall (ih t.length (Nat.lt_succ_self _) t rfl)

theorem replaceAll_of_clean (h : rule.Clean s) : rule.replaceAll s = s := by
  induction s using replaceAll_induction rule with
  | nil => rfl
  | matched w t hw => exact absurd hw (h w (List.prefix_append w t).isInfix)
  | kept a t hnone hall ih => rw [hall, ih fun w hw ↦ h w (List.infix_cons hw)]

end Rule

/-! ### Several replacements -/

/-- A text is another with pieces of it, none overlapping another, replaced: each a match of a rule,
by the placeholder of the rule. -/
inductive Replaced (rules : List (Rule opening closing)) : List α → List α → Prop
  | nil : Replaced rules [] []
  | keep (a : α) {s t : List α} (rest : Replaced rules s t) : Replaced rules (a :: s) (a :: t)
  | put {rule : Rule opening closing} {w s t : List α} (mem : rule ∈ rules)
      (matched : rule.Matches w) (rest : Replaced rules s t) :
      Replaced rules (w ++ s) (rule.placeholder ++ t)

section Replacements

variable {rules : List (Rule opening closing)} {rule : Rule opening closing} {s t w : List α}

theorem Replaced.refl : ∀ s : List α, Replaced rules s s
  | [] => .nil
  | a :: s => .keep a (Replaced.refl s)

/-- What stands in the new text, before any placeholder, stood in the old. -/
theorem Replaced.of_append (h : Replaced rules s (w ++ t)) (hopening : opening ∉ w) :
    ∃ s', s = w ++ s' ∧ Replaced rules s' t := by
  induction w generalizing s with
  | nil => exact ⟨s, rfl, h⟩
  | cons a w ih =>
    rw [List.mem_cons, not_or] at hopening
    generalize hnew : a :: w ++ t = new at h
    rcases h with _ | ⟨a', hrest⟩ | @⟨rule, w', s', t', hmem, hmatched, hrest⟩
    · cases hnew
    · obtain ⟨rfl, rfl⟩ := List.cons_eq_cons.1 hnew
      obtain ⟨s', rfl, hs'⟩ := ih hrest hopening.2
      exact ⟨s', rfl, hs'⟩
    · exact absurd (List.cons_eq_cons.1 hnew).1.symm hopening.1

theorem infix_placeholder_append (hclosing : closing ∉ w) (h : w <:+: rule.placeholder ++ t) :
    w <:+: rule.placeholder ∨ w <:+: t := by
  have hsplit : rule.placeholder ++ t = (opening :: rule.label) ++ closing :: t := by
    rw [Rule.placeholder, List.cons_append, List.append_assoc]
    rfl
  rw [hsplit] at h
  refine (infix_of_infix_append_cons hclosing h).imp_left fun hlabel ↦ hlabel.trans ?_
  have hstart : opening :: rule.label <+: rule.placeholder :=
    List.prefix_append (opening :: rule.label) [closing]
  exact hstart.isInfix

/-- A word without delimiters is in the new text only as it was in the old, or inside of a
placeholder. -/
theorem Replaced.old_or_placeholder (h : Replaced rules s t) (hw : w <:+: t)
    (hopening : opening ∉ w) (hclosing : closing ∉ w) :
    w <:+: s ∨ ∃ rule ∈ rules, w <:+: rule.placeholder := by
  induction h with
  | nil => exact .inl hw
  | @keep a s t hrest ih =>
    rcases List.infix_cons_iff.1 hw with ⟨v, hv⟩ | hin
    · obtain ⟨s', hs', -⟩ := Replaced.of_append (hv ▸ Replaced.keep a hrest) hopening
      exact .inl (hs' ▸ (List.prefix_append w s').isInfix)
    · exact (ih hin).imp_left List.infix_cons
  | @put rule w' s t hmem hmatched hrest ih =>
    rcases infix_placeholder_append hclosing hw with hplaceholder | hin
    · exact .inr ⟨rule, hmem, hplaceholder⟩
    · exact (ih hin).imp_left fun hs ↦ hs.trans (List.suffix_append w' s).isInfix

/-- A replacement takes no text to a match, unless a placeholder holds one. -/
theorem Replaced.clean (h : Replaced rules s t) (hs : rule.Clean s)
    (hplaceholders : ∀ rule' ∈ rules, rule.Clean rule'.placeholder) : rule.Clean t := by
  intro w hw hmatches
  rcases h.old_or_placeholder hw hmatches.opening_notMem hmatches.closing_notMem with
    hold | ⟨rule', hmem, hin⟩
  · exact hs w hold hmatches
  · exact hplaceholders rule' hmem w hin hmatches

/-- Nothing is found across the end of a placeholder. -/
theorem Rule.replaceAll_placeholder_append {rule' : Rule opening closing}
    (h : rule.Clean rule'.placeholder) (t : List α) :
    rule.replaceAll (rule'.placeholder ++ t) = rule'.placeholder ++ rule.replaceAll t := by
  suffices hends : ∀ u, u ++ [closing] <:+: rule'.placeholder →
      rule.replaceAll (u ++ closing :: t) = u ++ closing :: rule.replaceAll t by
    have hwhole := hends (opening :: rule'.label) List.infix_rfl
    rwa [Rule.placeholder, ← List.cons_append, List.append_assoc, List.append_assoc]
  intro u hu
  induction u with
  | nil =>
    rcases Rule.replaceAll_cases rule (closing :: t) with
      hnil | ⟨w, t', hw, heq, -⟩ | ⟨a, t', -, heq, hall⟩
    · exact absurd hnil (List.cons_ne_nil closing t)
    · rcases w with _ | ⟨a, w⟩
      · exact absurd rfl hw.ne_nil
      · obtain ⟨rfl, -⟩ := List.cons_eq_cons.1 heq
        exact absurd List.mem_cons_self hw.closing_notMem
    · obtain ⟨rfl, rfl⟩ := List.cons_eq_cons.1 heq
      exact hall
  | cons b u ih =>
    rcases Rule.replaceAll_cases rule (b :: u ++ closing :: t) with
      hnil | ⟨w, t', hw, heq, -⟩ | ⟨a, t', -, heq, hall⟩
    · exact absurd hnil (List.cons_ne_nil b _)
    · have hstart : w <+: b :: u :=
        prefix_of_prefix_append_cons hw.closing_notMem (heq ▸ List.prefix_append w t')
      have hin := (hstart.trans (List.prefix_append (b :: u) [closing])).isInfix.trans hu
      exact absurd hw (h w hin)
    · obtain ⟨rfl, rfl⟩ := List.cons_eq_cons.1 heq
      have hrest := ih ((List.suffix_cons b (u ++ [closing])).isInfix.trans hu)
      exact hall.trans (congrArg (List.cons b) hrest)

/-- The matches of a rule, in a text that is the old one with pieces replaced, are pieces of the old
one. -/
theorem Replaced.replaceAll (h : Replaced rules s t) (hmem : rule ∈ rules)
    (hplaceholders : ∀ rule' ∈ rules, rule.Clean rule'.placeholder) :
    Replaced rules s (rule.replaceAll t) := by
  induction hn : s.length using Nat.strong_induction_on generalizing s t with
  | _ n ih =>
    subst hn
    rcases h with _ | ⟨a, hrest⟩ | @⟨rule', w', s', t', hmem', hmatched, hrest⟩
    · exact .nil
    · rename_i s t
      rcases Rule.replaceAll_cases rule (a :: t) with
        hnil | ⟨w, t', hw, heq, hall⟩ | ⟨a', t', -, heq, hall⟩
      · exact absurd hnil (List.cons_ne_nil a t)
      · obtain ⟨s', hs', hrest'⟩ :=
          Replaced.of_append (heq ▸ Replaced.keep a hrest) hw.opening_notMem
        rw [hall]
        rw [hs'] at ih ⊢
        exact .put hmem hw (ih _ (length_lt_append hw.ne_nil s') hrest' rfl)
      · obtain ⟨rfl, rfl⟩ := List.cons_eq_cons.1 heq
        rw [hall]
        exact .keep a (ih _ (Nat.lt_succ_self _) hrest rfl)
    · rw [Rule.replaceAll_placeholder_append (hplaceholders rule' hmem')]
      exact .put hmem' hmatched (ih _ (length_lt_append hmatched.ne_nil s') hrest rfl)

/-- No match is left of the rule whose matches were replaced. -/
theorem Rule.clean_replaceAll (h : rule.Clean rule.placeholder) (s : List α) :
    rule.Clean (rule.replaceAll s) := by
  induction s using Rule.replaceAll_induction rule with
  | nil => exact fun w hw hmatches ↦ hmatches.ne_nil (List.infix_nil.1 hw)
  | matched w t hw hall ih =>
    rw [hall]
    intro w' hw' hmatches
    rcases infix_placeholder_append hmatches.closing_notMem hw' with hplaceholder | hin
    · exact h w' hplaceholder hmatches
    · exact ih w' hin hmatches
  | kept a t hnone hall ih =>
    rw [hall]
    intro w hw hmatches
    rcases List.infix_cons_iff.1 hw with ⟨v, hv⟩ | hin
    · have hrest : Replaced [rule] t (rule.replaceAll t) :=
        (Replaced.refl t).replaceAll (List.mem_singleton_self rule) (by simpa using h)
      obtain ⟨s', hs', -⟩ :=
        Replaced.of_append (hv ▸ Replaced.keep a hrest) hmatches.opening_notMem
      exact hnone w (hs' ▸ List.prefix_append w s') hmatches
    · exact ih w hin hmatches

/-- The replacements of the rules, one after the other. -/
def replaceEach (rules : List (Rule opening closing)) (s : List α) : List α :=
  rules.foldl (fun t rule ↦ rule.replaceAll t) s

/-- No placeholder holds a match. -/
def Apart (rules : List (Rule opening closing)) : Prop :=
  ∀ rule ∈ rules, ∀ rule' ∈ rules, rule.Clean rule'.placeholder

/-- Some of the rules have been applied, and the rest is. -/
theorem replaced_foldl {rest : List (Rule opening closing)} (hapart : Apart rules)
    (hrest : ∀ rule ∈ rest, rule ∈ rules) (h : Replaced rules s t) :
    Replaced rules s (rest.foldl (fun t rule ↦ rule.replaceAll t) t) ∧
      ∀ rule ∈ rules, rule.Clean t ∨ rule ∈ rest →
        rule.Clean (rest.foldl (fun t rule ↦ rule.replaceAll t) t) := by
  induction rest generalizing t with
  | nil => exact ⟨h, fun rule _ hclean ↦ hclean.resolve_right List.not_mem_nil⟩
  | cons first rest ih =>
    obtain ⟨hfirst, hrest⟩ := List.forall_mem_cons.1 hrest
    have hone : Replaced rules t (first.replaceAll t) :=
      (Replaced.refl t).replaceAll hfirst (hapart first hfirst)
    obtain ⟨hreplaced, hclean⟩ := ih hrest (h.replaceAll hfirst (hapart first hfirst))
    refine ⟨hreplaced, fun rule hrule hbefore ↦ hclean rule hrule ?_⟩
    rcases hbefore with ht | hmem
    · exact .inl (hone.clean ht (hapart rule hrule))
    · rcases List.mem_cons.1 hmem with rfl | hlater
      · exact .inl (Rule.clean_replaceAll (hapart rule hfirst rule hfirst) t)
      · exact .inr hlater

theorem replaced_replaceEach (hapart : Apart rules) (s : List α) :
    Replaced rules s (replaceEach rules s) :=
  (replaced_foldl hapart (fun _ hrule ↦ hrule) (Replaced.refl s)).1

theorem clean_replaceEach (hapart : Apart rules) (s : List α) :
    ∀ rule ∈ rules, rule.Clean (replaceEach rules s) := fun rule hrule ↦
  (replaced_foldl hapart (fun _ hrule ↦ hrule) (Replaced.refl s)).2 rule hrule (.inr hrule)

theorem replaceEach_of_clean (h : ∀ rule ∈ rules, rule.Clean s) : replaceEach rules s = s := by
  induction rules with
  | nil => rfl
  | cons first rules ih =>
    obtain ⟨hfirst, hrest⟩ := List.forall_mem_cons.1 h
    rw [replaceEach, List.foldl_cons, Rule.replaceAll_of_clean hfirst]
    exact ih hrest

theorem replaceEach_idempotent (hapart : Apart rules) (s : List α) :
    replaceEach rules (replaceEach rules s) = replaceEach rules s :=
  replaceEach_of_clean (clean_replaceEach hapart s)

/-! ### Checking a placeholder -/

/-- The search finds nothing at any place of the text. -/
def Rule.finds (rule : Rule opening closing) (s : List α) : Bool :=
  s.tails.any fun u ↦ (matchLength rule.runs u).isSome

theorem Rule.clean_of_finds (h : rule.finds s = false) : rule.Clean s := by
  rintro w ⟨u, v, rfl⟩ hmatches
  have hmem : w ++ v ∈ (u ++ w ++ v).tails := by
    rw [List.mem_tails, List.append_assoc]
    exact List.suffix_append u (w ++ v)
  have hnone := List.any_eq_false.1 h (w ++ v) hmem
  exact hnone (matchLength_isSome hmatches v)

end Replacements

end Patterns
