import Himadri.Transition.System
import Mathlib.Data.List.Basic
import Mathlib.Order.Nat

/-!
# Copies of a document

A source publishes one document after another, and a refresher keeps a copy: it sends a request,
the source answers with what it has published by then, and the refresher stores the answer. Between
any two of these moments the source may publish, and an answer may fail, which leaves the copy as it
is.

The copy is never older than the request it was stored for (`copy_published`); so once a document is
no longer published, the first refresh that begins afterwards and does not fail ends it
(`published_of_refreshed`).

At the root namespace: nothing here knows what a document is.
-/

namespace Copies

variable {α : Type*}

/-- What the refresher is at; a request is known by the version that was published as it was
sent. -/
inductive Refresher (α : Type*)
  | asleep
  | waiting (since : ℕ)
  | answered (since : ℕ) (answer : Option α)

/-- What a request got at each version, the last of which is published now; and the copy, with the
request it was stored for and how often one was stored. -/
structure Run (α : Type*) where
  published : List (Option α)
  copy : α
  since : ℕ
  refreshes : ℕ
  refresher : Refresher α

/-- The source publishes, or no longer answers; the refresher sends its request, has it answered
and stores the answer. -/
inductive Op (α : Type*)
  | publish (answer : Option α)
  | wake
  | answer
  | store

namespace Run

/-- The first document is published and copied. -/
def start (copy : α) : Run α := ⟨[some copy], copy, 0, 0, .asleep⟩

variable (s : Run α)

/-- The version that is published now. -/
def version : ℕ := s.published.length - 1

/-- One step. -/
def step? : Op α → Option (Run α)
  | .publish answer => some { s with published := s.published ++ [answer] }
  | .wake =>
    match s.refresher with
    | .asleep => some { s with refresher := .waiting s.version }
    | _ => none
  | .answer =>
    match s.refresher with
    | .waiting since =>
      s.published.getLast?.map fun answer ↦ { s with refresher := .answered since answer }
    | _ => none
  | .store =>
    match s.refresher with
    | .answered since (some document) =>
      some
        { s with
          copy := document
          since
          refreshes := s.refreshes + 1
          refresher := .asleep }
    | .answered _ none => some { s with refresher := .asleep }
    | _ => none

/-- The document was published at a version or after it. -/
def PublishedSince (version : ℕ) (document : α) : Prop :=
  ∃ v, version ≤ v ∧ s.published[v]? = some (some document)

end Run

/-- The runs from a first document. -/
def runs (first : α → Prop) : TransitionSystem (Run α) (Op α) :=
  .ofPartial (fun s ↦ ∃ copy, first copy ∧ s = .start copy) Run.step?

/-- A copy is stored for a request that was sent before it, and what is on its way is not older than
its request. -/
structure Kept (s : Run α) : Prop where
  published : s.published ≠ []
  copy : s.PublishedSince s.since s.copy
  waiting : ∀ since, s.refresher = .waiting since → s.since ≤ since ∧ since ≤ s.version
  answered : ∀ since answer, s.refresher = .answered since answer →
    s.since ≤ since ∧ ∀ document ∈ answer, s.PublishedSince since document

variable {first : α → Prop} {s s' : Run α} {op : Op α} {document : α} {n m : ℕ}

theorem Run.PublishedSince.anti (h : s.PublishedSince n document) (hle : m ≤ n) :
    s.PublishedSince m document :=
  h.imp fun _ hv ↦ ⟨hle.trans hv.1, hv.2⟩

theorem Run.PublishedSince.of_more (h : s.PublishedSince n document)
    (hmore : s.published <+: s'.published) : s'.PublishedSince n document := by
  obtain ⟨v, hle, hv⟩ := h
  obtain ⟨later, hlater⟩ := hmore
  refine ⟨v, hle, ?_⟩
  rw [← hlater, List.getElem?_append_left (List.getElem?_eq_some_iff.1 hv).1, hv]

/-- What is published now was published at this version. -/
theorem publishedSince_of_getLast? (h : s.published.getLast? = some (some document)) :
    s.PublishedSince s.version document :=
  ⟨s.version, le_rfl, by rw [← h, List.getLast?_eq_getElem?, Run.version]⟩

/-- A step ends in one of five ways. -/
theorem step_cases (hstep : s.step? op = some s') :
    (∃ answer, s' = { s with published := s.published ++ [answer] }) ∨
    (s.refresher = .asleep ∧ s' = { s with refresher := .waiting s.version }) ∨
    (∃ since answer, s.refresher = .waiting since ∧ s.published.getLast? = some answer ∧
      s' = { s with refresher := .answered since answer }) ∨
    (∃ since document, s.refresher = .answered since (some document) ∧
      s' = ⟨s.published, document, since, s.refreshes + 1, .asleep⟩) ∨
    ∃ since, s.refresher = .answered since none ∧ s' = { s with refresher := .asleep } := by
  rcases op with answer | _ | _ | _
  · exact .inl ⟨answer, (Option.some.inj hstep).symm⟩
  all_goals
    rw [Run.step?] at hstep
    split at hstep
  · next hasleep => exact .inr (.inl ⟨hasleep, (Option.some.inj hstep).symm⟩)
  · cases hstep
  · next since hwaiting =>
    obtain ⟨answer, hanswer, rfl⟩ := Option.map_eq_some_iff.1 hstep
    exact .inr (.inr (.inl ⟨since, answer, hwaiting, hanswer, rfl⟩))
  · cases hstep
  · next since document hanswered =>
    exact .inr (.inr (.inr (.inl ⟨since, document, hanswered, (Option.some.inj hstep).symm⟩)))
  · next since hanswered =>
    exact .inr (.inr (.inr (.inr ⟨since, hanswered, (Option.some.inj hstep).symm⟩)))
  · cases hstep

theorem Kept.step (h : Kept s) (hstep : s.step? op = some s') : Kept s' := by
  rcases step_cases hstep with ⟨answer, rfl⟩ | ⟨hasleep, rfl⟩ |
    ⟨since, answer, hwaiting, hlast, rfl⟩ | ⟨since, document, hanswered, rfl⟩ |
    ⟨since, hanswered, rfl⟩
  · have hmore : s.published <+: s.published ++ [answer] := List.prefix_append _ _
    refine ⟨List.append_ne_nil_of_left_ne_nil h.published _, h.copy.of_more hmore,
      fun since hwaiting ↦ ?_, fun since answer hanswered ↦ ?_⟩
    · obtain ⟨hsince, hversion⟩ := h.waiting since hwaiting
      refine ⟨hsince, hversion.trans ?_⟩
      exact Nat.sub_le_sub_right hmore.length_le 1
    · obtain ⟨hsince, hpublished⟩ := h.answered since answer hanswered
      exact ⟨hsince, fun document hdocument ↦ (hpublished document hdocument).of_more hmore⟩
  · refine ⟨h.published, h.copy, fun since hwaiting ↦ ?_, fun _ _ hanswered ↦ (by cases hanswered)⟩
    obtain rfl : s.version = since := Refresher.waiting.inj hwaiting
    obtain ⟨v, hle, hv⟩ := h.copy
    have hlt : v < s.published.length := (List.getElem?_eq_some_iff.1 hv).1
    exact ⟨hle.trans (Nat.le_sub_one_of_lt hlt), le_rfl⟩
  · obtain ⟨hsince, hversion⟩ := h.waiting since hwaiting
    refine ⟨h.published, h.copy, fun _ hwaiting ↦ (by cases hwaiting), fun _ _ hanswered ↦ ?_⟩
    obtain ⟨rfl, rfl⟩ := Refresher.answered.inj hanswered
    refine ⟨hsince, fun document hdocument ↦ ?_⟩
    obtain rfl := Option.mem_def.1 hdocument
    exact (publishedSince_of_getLast? hlast).anti hversion
  · obtain ⟨-, hpublished⟩ := h.answered since (some document) hanswered
    exact ⟨h.published, hpublished document rfl, fun _ hwaiting ↦ (by cases hwaiting),
      fun _ _ hanswered ↦ (by cases hanswered)⟩
  · exact ⟨h.published, h.copy, fun _ hwaiting ↦ (by cases hwaiting),
      fun _ _ hanswered ↦ (by cases hanswered)⟩

theorem kept_invariant : (runs first).Invariant Kept where
  init s hs := by
    obtain ⟨copy, -, rfl⟩ := hs
    exact ⟨List.cons_ne_nil _ _, ⟨0, le_rfl, rfl⟩, fun _ hwaiting ↦ (by cases hwaiting),
      fun _ _ hanswered ↦ (by cases hanswered)⟩
  step _ _ _ h hstep := h.step hstep

/-- The copy was published since the request it was stored for. -/
theorem copy_published (hs : (runs first).Reachable s) : s.PublishedSince s.since s.copy :=
  (kept_invariant.of_reachable hs).copy

/-- Whatever was begun after a version is known by it or a later one. -/
structure Fresh (n refreshes : ℕ) (s : Run α) : Prop where
  version : n ≤ s.version
  since : refreshes < s.refreshes → n ≤ s.since
  waiting : ∀ since, s.refresher = .waiting since → n ≤ since
  answered : ∀ since answer, s.refresher = .answered since answer → n ≤ since

theorem Fresh.step {refreshes : ℕ} (h : Fresh n refreshes s) (hstep : s.step? op = some s') :
    Fresh n refreshes s' := by
  rcases step_cases hstep with ⟨answer, rfl⟩ | ⟨-, rfl⟩ | ⟨since, answer, hwaiting, -, rfl⟩ |
    ⟨since, document, hanswered, rfl⟩ | ⟨since, hanswered, rfl⟩
  · refine ⟨h.version.trans ?_, h.since, h.waiting, h.answered⟩
    exact Nat.sub_le_sub_right (List.prefix_append s.published [answer]).length_le 1
  · refine ⟨h.version, h.since, fun since hwaiting ↦ ?_, fun _ _ hanswered ↦ (by cases hanswered)⟩
    obtain rfl : s.version = since := Refresher.waiting.inj hwaiting
    exact h.version
  · refine ⟨h.version, h.since, fun _ hwaiting ↦ (by cases hwaiting), fun _ _ hanswered ↦ ?_⟩
    obtain ⟨rfl, -⟩ := Refresher.answered.inj hanswered
    exact h.waiting since hwaiting
  · exact ⟨h.version, fun _ ↦ h.answered since _ hanswered, fun _ hwaiting ↦ (by cases hwaiting),
      fun _ _ hanswered ↦ (by cases hanswered)⟩
  · exact ⟨h.version, h.since, fun _ hwaiting ↦ (by cases hwaiting),
      fun _ _ hanswered ↦ (by cases hanswered)⟩

/-- Once a refresh that began after a version was stored, the copy is of that version or a later
one. -/
theorem published_of_refreshed (hs : (runs first).Reachable s) (hasleep : s.refresher = .asleep)
    (hleads : (runs first).Leads s s') (hrefreshed : s.refreshes < s'.refreshes) :
    s'.PublishedSince s.version s'.copy := by
  have hfresh : Fresh s.version s.refreshes s' := by
    clear hrefreshed
    induction hleads with
    | refl =>
      refine ⟨le_rfl, fun hlt ↦ absurd hlt (lt_irrefl _), fun _ hwaiting ↦ ?_,
        fun _ _ hanswered ↦ ?_⟩
      · rw [hasleep] at hwaiting
        cases hwaiting
      · rw [hasleep] at hanswered
        cases hanswered
    | tail _ hstep ih =>
      obtain ⟨op, hop⟩ := hstep
      exact ih.step hop
  exact (copy_published (hs.leads hleads)).anti (hfresh.since hrefreshed)

end Copies
