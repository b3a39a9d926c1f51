import Himadri.Core.KeyMap
import Himadri.Transition.System

/-!
# Rows that are read, merged and written back

A table whose rows are changed in two ways: by one statement that sets the columns a request names
(`set`), and by an update that reads the row, merges the request into the copy, and writes columns
of the merged copy back in a second statement (`update`). Between the two statements of an update
any others may run.

A column that no request names must keep its value, and one that some request names must have the
value it was given last (`Keeps`). The second statement of an update breaks this exactly where a
column it copies, and its request does not name, has changed since the first (`Keeps.step_iff`), so
`Keeps` is an invariant of the runs in which that does not happen (`keeps_invariant`).

At the root namespace: nothing here knows what a row is.
-/

/-- Rows of type `R` with the columns `κ`, and requests `Q` that name some of the columns. -/
structure ColumnTable (κ : Type*) (V : κ → Type*) (R Q : Type*) where
  column : R → ∀ c, V c
  /-- The value the request gives the column. -/
  named : Q → ∀ c, Option (V c)
  /-- Whether an update writes the column also where its request does not name it. -/
  copied : κ → Bool
  /-- The row after the one statement that sets the columns named. -/
  set : Q → R → R
  /-- The row after an update has written back what it read, merged with its request. -/
  update : Q → (read row : R) → R
  column_set : ∀ q row c, column (set q row) c = (named q c).getD (column row c)
  column_update : ∀ q read row c,
    column (update q read row) c = (named q c).getD (column (if copied c then read else row) c)

/-- An update between its two statements. -/
structure PendingUpdate (K R Q : Type*) where
  key : K
  request : Q
  /-- The row as it was read. -/
  read : R

/-- A table and the updates under way. -/
structure TableRun (K R Q : Type*) where
  rows : KeyMap K R
  pending : List (PendingUpdate K R Q)
  /-- The rows at first. -/
  start : KeyMap K R
  /-- The requests whose statement has been executed, with the row it was for; the last first. -/
  log : List (K × Q)

/-- One statement. -/
inductive TableOp (I Q : Type*)
  /-- An update reads its row. -/
  | read (id : I) (request : Q)
  /-- The `j`-th of the updates under way writes its row, and returns. -/
  | write (j : ℕ)
  | set (id : I) (request : Q)

namespace TableRun

variable {I K κ R Q : Type*} {V : κ → Type*} [DecidableEq K]

/-- A table of which nothing is under way. -/
def new (rows : KeyMap K R) : TableRun K R Q where
  rows := rows
  pending := []
  start := rows
  log := []

variable (T : ColumnTable κ V R Q) (locate : I → Option K) (s : TableRun K R Q)

/-- The row after a statement. An id that cannot be one of the table's, or that no row has, ends an
operation without a further statement. -/
def step? : TableOp I Q → Option (TableRun K R Q)
  | .read id request =>
    match locate id with
    | none => some s
    | some key =>
      match s.rows.get key with
      | none => some s
      | some row => some { s with pending := s.pending ++ [⟨key, request, row⟩] }
  | .write j =>
    s.pending[j]?.map fun p ↦
      { s with
        rows := s.rows.modify p.key (T.update p.request p.read)
        pending := s.pending.eraseIdx j
        log := (p.key, p.request) :: s.log }
  | .set id request =>
    match locate id with
    | none => some s
    | some key =>
      some
        { s with
          rows := s.rows.modify key (T.set request)
          log := (key, request) :: s.log }

/-- The runs of the table, from any rows. -/
def runs : TransitionSystem (TableRun K R Q) (TableOp I Q) :=
  .ofPartial (fun s ↦ ∃ rows, s = new rows) (step? T locate)

/-- What the column was given last. -/
def lastNamed (log : List (K × Q)) (key : K) (c : κ) : Option (V c) :=
  log.findSome? fun e ↦ if e.1 = key then T.named e.2 c else none

/-- Each column of a row is what it was given last, or as it was at first. -/
def Keeps : Prop :=
  ∀ key row, s.rows.get key = some row → ∃ row₀, s.start.get key = some row₀ ∧
    ∀ c, T.column row c = (lastNamed T s.log key c).getD (T.column row₀ c)

/-- What an update copies without naming it is still as it was read. -/
def Fresh : TableOp I Q → Prop
  | .write j => ∀ p ∈ s.pending[j]?, ∀ row ∈ s.rows.get p.key, ∀ c, T.copied c = true →
      T.named p.request c = none → T.column p.read c = T.column row c
  | _ => True

variable {T locate s}

theorem lastNamed_cons_self {log : List (K × Q)} {key : K} {q : Q} {c : κ} :
    lastNamed T ((key, q) :: log) key c = (T.named q c <|> lastNamed T log key c) := by
  rw [lastNamed, List.findSome?_cons, if_pos rfl]
  rcases T.named q c with - | v
  · rfl
  · rfl

theorem lastNamed_cons_of_ne {log : List (K × Q)} {key key' : K} {q : Q} {c : κ}
    (hne : key' ≠ key) : lastNamed T ((key, q) :: log) key' c = lastNamed T log key' c := by
  rw [lastNamed, List.findSome?_cons, if_neg (Ne.symm hne)]
  rfl

theorem lastNamed_eq_some {log : List (K × Q)} {key : K} {c : κ} {v : V c}
    (h : lastNamed T log key c = some v) : ∃ q, (key, q) ∈ log ∧ T.named q c = some v := by
  obtain ⟨⟨key', q⟩, hmem, hq⟩ := List.exists_of_findSome?_eq_some h
  obtain ⟨rfl, hnamed⟩ := Option.ite_none_right_eq_some.1 hq
  exact ⟨q, hmem, hnamed⟩

theorem lastNamed_eq_none {log : List (K × Q)} {key : K} {c : κ}
    (h : lastNamed T log key c = none) {q : Q} (hmem : (key, q) ∈ log) : T.named q c = none := by
  have hq := List.findSome?_eq_none_iff.1 h _ hmem
  rwa [if_pos rfl] at hq

/-- A column that is given one value only, by however many statements, has that value. -/
theorem Keeps.column_eq (h : s.Keeps T) {key : K} {row : R} (hrow : s.rows.get key = some row)
    {c : κ} {v : V c} (hnamed : ∃ q, (key, q) ∈ s.log ∧ T.named q c = some v)
    (honly : ∀ q, (key, q) ∈ s.log → ∀ w ∈ T.named q c, w = v) : T.column row c = v := by
  obtain ⟨row₀, -, hcolumn⟩ := h key row hrow
  obtain ⟨q, hmem, hv⟩ := hnamed
  rw [hcolumn c]
  rcases hlast : lastNamed T s.log key c with - | w
  · rw [lastNamed_eq_none hlast hmem] at hv
    cases hv
  · obtain ⟨q', hmem', hw⟩ := lastNamed_eq_some hlast
    exact honly q' hmem' w hw

theorem keeps_new (rows : KeyMap K R) : (new rows : TableRun K R Q).Keeps T := by
  intro key row hrow
  exact ⟨row, hrow, fun c ↦ rfl⟩

/-- A statement that gives a row its new columns keeps the others exactly where it changes nothing
but what its request names. -/
theorem Keeps.modify_iff (h : s.Keeps T) {key : K} {q : Q} {f : R → R}
    {pending : List (PendingUpdate K R Q)} :
    ({ s with
      rows := s.rows.modify key f
      pending := pending
      log := (key, q) :: s.log } : TableRun K R Q).Keeps T ↔
      ∀ row ∈ s.rows.get key, ∀ c, T.column (f row) c = (T.named q c).getD (T.column row c) := by
  constructor
  · intro hafter row hrow c
    have hget : (s.rows.modify key f).get key = some (f row) := by
      rw [KeyMap.get_modify, if_pos rfl, hrow, Option.map_some]
    obtain ⟨row₀, hstart, hcolumn⟩ := h key row hrow
    obtain ⟨row₁, hstart', hcolumn'⟩ := hafter key (f row) hget
    obtain rfl : row₀ = row₁ := Option.some.inj (hstart.symm.trans hstart')
    rw [hcolumn' c, lastNamed_cons_self, hcolumn c]
    rcases T.named q c with - | v
    · rfl
    · rfl
  · intro honly key' row' hrow'
    rw [KeyMap.get_modify] at hrow'
    split at hrow'
    · next heq =>
      subst heq
      obtain ⟨row, hrow, rfl⟩ := Option.map_eq_some_iff.1 hrow'
      obtain ⟨row₀, hstart, hcolumn⟩ := h key' row hrow
      refine ⟨row₀, hstart, fun c ↦ ?_⟩
      rw [honly row hrow c, hcolumn c]
      show _ = (lastNamed T ((key', q) :: s.log) key' c).getD _
      rw [lastNamed_cons_self]
      rcases T.named q c with - | v
      · rfl
      · rfl
    · next hne =>
      obtain ⟨row₀, hstart, hcolumn⟩ := h key' row' hrow'
      refine ⟨row₀, hstart, fun c ↦ ?_⟩
      rw [hcolumn c]
      show _ = (lastNamed T ((key, q) :: s.log) key' c).getD _
      rw [lastNamed_cons_of_ne hne]

/-- **Of the statements, only the second of an update can break `Keeps`, and only by a copy that is
out of date.** -/
theorem Keeps.step_iff (h : s.Keeps T) {op : TableOp I Q} {s' : TableRun K R Q}
    (hstep : s.step? T locate op = some s') : s'.Keeps T ↔ s.Fresh T op := by
  cases op with
  | read id request =>
    refine iff_of_true ?_ trivial
    simp only [step?] at hstep
    split at hstep
    · obtain rfl := Option.some.inj hstep
      exact h
    · split at hstep
      · obtain rfl := Option.some.inj hstep
        exact h
      · obtain rfl := Option.some.inj hstep
        exact h
  | set id request =>
    refine iff_of_true ?_ trivial
    simp only [step?] at hstep
    split at hstep
    · obtain rfl := Option.some.inj hstep
      exact h
    · obtain rfl := Option.some.inj hstep
      exact h.modify_iff.2 fun row _ c ↦ T.column_set request row c
  | write j =>
    obtain ⟨p, hp, rfl⟩ := Option.map_eq_some_iff.1 hstep
    rw [h.modify_iff, Fresh, hp]
    simp only [Option.mem_some_iff, forall_eq', T.column_update]
    refine forall₃_congr fun row _ c ↦ ?_
    rcases T.named p.request c with - | v
    · rcases T.copied c with - | -
      · simp
      · simp
    · simp

theorem keeps_invariant : ((runs T locate).guard (Fresh T)).Invariant (Keeps T) where
  init s hs := by
    obtain ⟨rows, rfl⟩ := hs
    exact keeps_new rows
  step s op s' h hstep := (h.step_iff hstep.1).2 hstep.2

end TableRun
