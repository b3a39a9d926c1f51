import Himadri.Transition.System
import Mathlib.Data.List.Basic
import Mathlib.Data.List.Perm.Basic

/-!
# Postings to shared books

Any number of tasks each post a list of entries, one atomic step an entry, to a state they share;
between two entries of one task come those of others. The ledger keeps the entries in the order they
were posted, and the state is what the ledger makes of it (`Posted.state`). What is on the ledger
and what the tasks have yet to post is what they were begun with (`Posted.perm`), so once every task
is done the ledger is what was begun, in some order, and whatever does not depend on the order is
known.

At the root namespace: nothing here knows what an entry is.
-/

namespace Postings

variable {σ π : Type*}

/-- The shared state, the ledger, what each task has yet to post, and what every task was begun
with. -/
structure Run (σ π : Type*) where
  state : σ
  ledger : List π
  tasks : List (List π)
  begun : List (List π)

/-- Tasks are begun, or a task posts its next entry. -/
inductive Op (π : Type*)
  | begin (tasks : List (List π))
  | advance (j : ℕ)

variable (post : σ → π → σ)

/-- Nothing is begun. -/
def Run.start (state : σ) : Run σ π := ⟨state, [], [], []⟩

/-- One step. -/
def Run.step? (s : Run σ π) : Op π → Option (Run σ π)
  | .begin tasks => some { s with tasks := s.tasks ++ tasks, begun := s.begun ++ tasks }
  | .advance j =>
    match s.tasks[j]? with
    | some (p :: rest) =>
      some
        { s with
          state := post s.state p
          ledger := s.ledger ++ [p]
          tasks := s.tasks.set j rest }
    | _ => none

/-- Every task is done. -/
def Run.Quiet (s : Run σ π) : Prop := ∀ t ∈ s.tasks, t = []

/-- The state is what the ledger makes of the first one, and no entry is lost or posted twice. -/
structure Posted (start : σ) (s : Run σ π) : Prop where
  state : s.state = s.ledger.foldl post start
  perm : (s.ledger ++ s.tasks.flatten).Perm s.begun.flatten

variable {post} {start : σ} {s s' : Run σ π}

theorem posted_start : Posted post start (Run.start start) := ⟨rfl, List.Perm.refl _⟩

/-- A task that posts its next entry leaves the rest of what is to be posted. -/
theorem perm_flatten_set {tasks : List (List π)} {j : ℕ} {p : π} {rest : List π}
    (h : tasks[j]? = some (p :: rest)) :
    tasks.flatten.Perm (p :: (tasks.set j rest).flatten) := by
  induction tasks generalizing j with
  | nil => cases h
  | cons t tasks ih =>
    rcases j with - | j
    · obtain rfl := Option.some.inj h
      exact List.Perm.refl _
    · have hrest := (ih h).append_left t
      exact hrest.trans List.perm_middle

theorem Posted.step {op : Op π} (h : Posted post start s) (hstep : s.step? post op = some s') :
    Posted post start s' := by
  rcases op with tasks | j
  · obtain rfl := Option.some.inj hstep
    refine ⟨h.state, ?_⟩
    show (s.ledger ++ (s.tasks ++ tasks).flatten).Perm (s.begun ++ tasks).flatten
    rw [List.flatten_append, List.flatten_append, ← List.append_assoc]
    exact h.perm.append_right _
  · rw [Run.step?] at hstep
    split at hstep
    · next p rest htask =>
      obtain rfl := Option.some.inj hstep
      refine ⟨?_, ?_⟩
      · show post s.state p = (s.ledger ++ [p]).foldl post start
        rw [List.foldl_concat, h.state]
      · show (s.ledger ++ [p] ++ (s.tasks.set j rest).flatten).Perm s.begun.flatten
        rw [List.append_assoc]
        exact ((perm_flatten_set htask).symm.append_left s.ledger).trans h.perm
    · cases hstep

theorem Posted.perm_of_quiet (h : Posted post start s) (hquiet : s.Quiet) :
    s.ledger.Perm s.begun.flatten := by
  have hdone : s.tasks.flatten = [] := List.flatten_eq_nil_iff.2 hquiet
  have hperm := h.perm
  rwa [hdone, List.append_nil] at hperm

/-- What is kept posting by posting, in states that every posting keeps, and adds up whatever the
order, is known of quiet books from what was begun. -/
theorem Posted.total_of_quiet {M : Type*} {P : σ → Prop} {read : σ → M} (add : M → π → M)
    (hstart : P start) (hkeep : ∀ state p, P state → P (post state p))
    (hread : ∀ state p, P state → read (post state p) = add (read state) p)
    (hcomm : ∀ m p q, add (add m p) q = add (add m q) p)
    (h : Posted post start s) (hquiet : s.Quiet) :
    read s.state = s.begun.flatten.foldl add (read start) := by
  have hfold (ledger : List π) (state : σ) (hstate : P state) :
      read (ledger.foldl post state) = ledger.foldl add (read state) := by
    induction ledger generalizing state with
    | nil => rfl
    | cons p ledger ih =>
      rw [List.foldl_cons, List.foldl_cons, ih _ (hkeep state p hstate), hread state p hstate]
  have : RightCommutative add := ⟨hcomm⟩
  rw [h.state, hfold s.ledger start hstart]
  exact (h.perm_of_quiet hquiet).foldl_eq (read start)

end Postings
