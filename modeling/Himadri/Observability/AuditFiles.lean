import Himadri.Core.Lines
import Himadri.Observability.Redact
import Mathlib.Data.List.Forall2

/-!
# The audit files

`AuditLog::write_loop` takes the events off the queue one by one and appends each as a line to the
file of its day. A file may fail to open, and a write may fail with part of the line already there;
the loop only warns and goes on. `serde_json::to_string` is a parameter: of its lines it is asked
that they hold no line break.

Whatever is logged, received and written in whatever order, every event is dropped, queued, at the
writer, or done with, once and in the order it was logged in. A file has one line for each write
that succeeded. A write that breaks off costs its own event and glues what it left to the next one's
line, and nothing else (`one_line_each`).
-/

/-! ### Lines in pieces -/

namespace Lines

variable {α : Type*} [DecidableEq α] {sep : α}

theorem complete_of_notMem {l : List α} (h : sep ∉ l) : complete sep l = [] ∧ rest sep l = l := by
  refine eq_of_splitOn ?_
  have happend := splitOn_append_of_notMem h []
  rw [List.append_nil] at happend
  rw [happend]
  show [l ++ []] = [l]
  rw [List.append_nil]

theorem complete_concat {l : List α} (h : sep ∉ l) :
    complete sep (l ++ [sep]) = [l] ∧ rest sep (l ++ [sep]) = [] := by
  refine eq_of_splitOn ?_
  rw [splitOn_append_of_notMem h, splitOn_cons_self]
  show [l ++ [], []] = [l, []]
  rw [List.append_nil]

end Lines

namespace Himadri

/-- How the loop's write of a line ends: the file is opened and takes all of it, or the first
`sent` bytes before the write fails, or it is not opened. -/
inductive FileWrite
  | whole
  | torn (sent : ℕ)
  | unopened
  deriving DecidableEq

/-- The line break. -/
def newline : UInt8 := 10

/-- What a write leaves in the file; one that fails has not written the line break. -/
def FileWrite.piece (line : List UInt8) : FileWrite → List UInt8
  | .whole => line ++ [newline]
  | .torn sent => line.take sent
  | .unopened => []

/-- The writes of a file, one after another. -/
def written (writes : List (List UInt8 × FileWrite)) : List UInt8 :=
  writes.flatMap fun w ↦ w.2.piece w.1

/-- The lines whose writes succeeded. -/
def wholeLines (writes : List (List UInt8 × FileWrite)) : List (List UInt8) :=
  (writes.filter (·.2 = .whole)).map Prod.fst

/-- No write breaks off. -/
def NoneTorn (writes : List (List UInt8 × FileWrite)) : Prop :=
  ∀ w ∈ writes, ∀ sent, w.2 ≠ .torn sent

theorem written_concat (writes : List (List UInt8 × FileWrite)) (w : List UInt8 × FileWrite) :
    written (writes ++ [w]) = written writes ++ w.2.piece w.1 := by
  rw [written, List.flatMap_append, List.flatMap_singleton]
  rfl

theorem wholeLines_concat (writes : List (List UInt8 × FileWrite)) (w : List UInt8 × FileWrite) :
    wholeLines (writes ++ [w]) = wholeLines writes ++ if w.2 = .whole then [w.1] else [] := by
  rw [wholeLines, List.filter_append, List.map_append, wholeLines]
  congr 1
  by_cases h : w.2 = .whole
  · simp [h]
  · simp [h]

/-- A file has one line for each write that succeeded, and the line ends with what was to be
written. -/
theorem forall₂_suffix_written {writes : List (List UInt8 × FileWrite)}
    (h : ∀ w ∈ writes, newline ∉ w.1) :
    List.Forall₂ (fun line text ↦ line <:+ text) (wholeLines writes)
      (Lines.complete newline (written writes)) := by
  induction writes using List.reverseRecOn with
  | nil => exact .nil
  | append_singleton writes w ih =>
    rw [List.forall_mem_append, List.forall_mem_singleton] at h
    obtain ⟨hwrites, hw⟩ := h
    have hrest : newline ∉ Lines.rest newline (written writes) := Lines.notMem_rest _
    rw [written_concat, wholeLines_concat, Lines.complete_append]
    refine List.rel_append (ih hwrites) ?_
    obtain ⟨line, result⟩ := w
    rcases result with - | sent | -
    · have hnone : newline ∉ Lines.rest newline (written writes) ++ line :=
        fun hmem ↦ (List.mem_append.1 hmem).elim hrest hw
      rw [if_pos rfl]
      show List.Forall₂ _ [line]
        (Lines.complete newline (Lines.rest newline (written writes) ++ (line ++ [newline])))
      rw [← List.append_assoc, (Lines.complete_concat hnone).1]
      exact .cons (List.suffix_append _ _) .nil
    · have hnone : newline ∉ Lines.rest newline (written writes) ++ line.take sent :=
        fun hmem ↦ (List.mem_append.1 hmem).elim hrest fun htake ↦ hw (List.mem_of_mem_take htake)
      rw [if_neg (by simp)]
      show List.Forall₂ _ []
        (Lines.complete newline (Lines.rest newline (written writes) ++ line.take sent))
      rw [(Lines.complete_of_notMem hnone).1]
      exact .nil
    · rw [if_neg (by simp)]
      show List.Forall₂ _ [] (Lines.complete newline (Lines.rest newline (written writes) ++ []))
      rw [List.append_nil, (Lines.complete_of_notMem hrest).1]
      exact .nil

/-- Where no write breaks off, the lines are those that were to be written. -/
theorem complete_written {writes : List (List UInt8 × FileWrite)}
    (h : ∀ w ∈ writes, newline ∉ w.1) (hnone : NoneTorn writes) :
    Lines.complete newline (written writes) = wholeLines writes ∧
      Lines.rest newline (written writes) = [] := by
  induction writes using List.reverseRecOn with
  | nil => exact ⟨rfl, rfl⟩
  | append_singleton writes w ih =>
    rw [List.forall_mem_append, List.forall_mem_singleton] at h
    obtain ⟨hcomplete, hrest⟩ := ih h.1 fun v hv ↦ hnone v (List.mem_append_left _ hv)
    rw [written_concat, wholeLines_concat, Lines.complete_append, Lines.rest_append, hcomplete,
      hrest, List.nil_append]
    obtain ⟨line, result⟩ := w
    rcases result with - | sent | -
    · obtain ⟨hline, hend⟩ := Lines.complete_concat h.2
      rw [if_pos rfl]
      exact ⟨congrArg _ hline, hend⟩
    · exact absurd rfl (hnone _ (List.mem_append_right _ List.mem_cons_self) sent)
    · rw [if_neg (by simp)]
      exact ⟨rfl, rfl⟩

/-! ### The writer -/

/-- The audit log and its writer: the event the loop has received and not yet written, the files by
day, and beside them every event ever logged, with whether there was room for it, and every event
the loop is done with, with how its write ended. -/
structure AuditWriter (M : Type) where
  log : AuditLog M
  writing : Option (AuditEvent M)
  files : String → List UInt8
  logged : List (AuditEvent M × Bool)
  settled : List (AuditEvent M × FileWrite)

/-- A call of `log`; the loop receives; the loop writes. -/
inductive AuditWriterOp (M : Type)
  | log (event : AuditEvent M)
  | receive
  | write (result : FileWrite)

namespace AuditWriter

variable {M : Type} (day : M → String) (toVec : AuditEvent M → Option (List UInt8))

/-- The writer of a log that was just made. -/
def start (redactPii captureContent : Bool) : AuditWriter M where
  log := .withOptions redactPii captureContent
  writing := none
  files _ := []
  logged := []
  settled := []

/-- The files after an event's write; an event that cannot be serialized is passed over. -/
def append (s : AuditWriter M) (event : AuditEvent M) (result : FileWrite) :
    String → List UInt8 :=
  match toVec event with
  | none => s.files
  | some line =>
    Function.update s.files (day event.metadata)
      (s.files (day event.metadata) ++ result.piece line)

/-- One step. -/
def step? (s : AuditWriter M) : AuditWriterOp M → Option (AuditWriter M)
  | .log event =>
    (s.log.step? (.log event)).map fun log ↦
      { s with
        log := log
        logged := s.logged ++ [(event, decide (s.log.queue.length < auditChannelCapacity))] }
  | .receive =>
    if s.writing.isNone then
      (s.log.step? .receive).map fun log ↦ { s with log := log, writing := s.log.queue.head? }
    else none
  | .write result =>
    s.writing.map fun event ↦
      { s with
        writing := none
        files := s.append day toVec event result
        settled := s.settled ++ [(event, result)] }

/-- The runs of a log and its writer. -/
def runs (redactPii captureContent : Bool) :
    TransitionSystem (AuditWriter M) (AuditWriterOp M) :=
  .ofPartial (· = start redactPii captureContent) (step? day toVec)

/-- The writes to the file of a day. -/
def writesOf (s : AuditWriter M) (d : String) : List (List UInt8 × FileWrite) :=
  (s.settled.filter (day ·.1.metadata = d)).filterMap fun w ↦ (toVec w.1).map (·, w.2)

/-- The events there was room for, as they were queued. -/
def taken (s : AuditWriter M) : List (AuditEvent M) :=
  (s.logged.filter (·.2)).map (s.log.prepare ·.1)

/-- The events there was no room for. -/
def refused (s : AuditWriter M) : List (AuditEvent M) :=
  (s.logged.filter (!·.2)).map Prod.fst

/-- Every event is where its steps have brought it, and every file is what was written to it. -/
structure Accounted (s : AuditWriter M) : Prop where
  taken : s.taken = s.settled.map Prod.fst ++ s.writing.toList ++ s.log.queue
  dropped : s.refused.length = s.log.dropped
  files : ∀ d, s.files d = written (s.writesOf day toVec d)

variable {day toVec}

theorem writesOf_settle (s : AuditWriter M) (event : AuditEvent M) (result : FileWrite)
    (files : String → List UInt8) (d : String) :
    writesOf day toVec { s with
      writing := none, files := files, settled := s.settled ++ [(event, result)] } d =
      writesOf day toVec s d ++
        if day event.metadata = d then ((toVec event).map (·, result)).toList else [] := by
  rw [writesOf, List.filter_append, List.filterMap_append, writesOf]
  congr 1
  by_cases h : day event.metadata = d
  · rcases hline : toVec event with - | line <;> simp [h, hline]
  · simp [h]

theorem prepare_step {log log' : AuditLog M} {op : AuditOp M} (h : log.step? op = some log') :
    log'.prepare = log.prepare := by
  rcases op with event | -
  · rw [AuditLog.step?] at h
    split at h <;> obtain rfl := Option.some.inj h <;> rfl
  · rw [AuditLog.step?] at h
    split at h
    · cases h
    · obtain rfl := Option.some.inj h
      rfl

theorem Accounted.step {s s' : AuditWriter M} {op : AuditWriterOp M}
    (h : s.Accounted day toVec) (hstep : s.step? day toVec op = some s') :
    s'.Accounted day toVec := by
  rcases op with event | - | result
  · obtain ⟨log, hlog, rfl⟩ := Option.map_eq_some_iff.1 hstep
    have hprepare := prepare_step hlog
    rw [AuditLog.step?] at hlog
    split at hlog
    · next hroom =>
      obtain rfl := Option.some.inj hlog
      refine ⟨?_, ?_, h.files⟩
      · have htaken := h.taken
        rw [AuditWriter.taken] at htaken ⊢
        dsimp only
        rw [List.filter_append, List.map_append, hprepare, htaken, decide_eq_true hroom]
        simp [List.append_assoc]
      · have hdropped := h.dropped
        rw [refused] at hdropped ⊢
        dsimp only
        rw [List.filter_append, decide_eq_true hroom]
        simpa using hdropped
    · next hroom =>
      obtain rfl := Option.some.inj hlog
      refine ⟨?_, ?_, h.files⟩
      · have htaken := h.taken
        rw [AuditWriter.taken] at htaken ⊢
        dsimp only
        rw [List.filter_append, List.map_append, hprepare, htaken, decide_eq_false hroom]
        simp
      · have hdropped := h.dropped
        rw [refused] at hdropped ⊢
        dsimp only
        rw [List.filter_append, decide_eq_false hroom]
        simpa using hdropped
  · rw [step?] at hstep
    split at hstep
    · next hidle =>
      obtain ⟨log, hlog, rfl⟩ := Option.map_eq_some_iff.1 hstep
      have hprepare := prepare_step hlog
      rw [AuditLog.step?] at hlog
      split at hlog
      · cases hlog
      · next first queue hqueue =>
        obtain rfl := Option.some.inj hlog
        refine ⟨?_, h.dropped, h.files⟩
        have htaken := h.taken
        rw [AuditWriter.taken] at htaken ⊢
        dsimp only
        rw [hprepare, htaken, Option.isNone_iff_eq_none.1 hidle, hqueue]
        simp
    · cases hstep
  · obtain ⟨event, hwriting, rfl⟩ := Option.map_eq_some_iff.1 hstep
    refine ⟨?_, h.dropped, fun d ↦ ?_⟩
    · have htaken := h.taken
      rw [AuditWriter.taken] at htaken ⊢
      dsimp only
      rw [htaken, hwriting]
      simp
    · rw [writesOf_settle]
      show s.append day toVec event result d = _
      rw [append]
      rcases hline : toVec event with - | line
      · rw [show (Option.map (·, result) (none : Option (List UInt8))).toList = [] from rfl,
          ite_self, List.append_nil]
        exact h.files d
      · dsimp only
        by_cases hd : day event.metadata = d
        · subst hd
          rw [Function.update_self, if_pos rfl, h.files]
          exact (written_concat (s.writesOf day toVec (day event.metadata)) (line, result)).symm
        · rw [Function.update_of_ne (Ne.symm hd), if_neg hd, List.append_nil]
          exact h.files d

theorem flags_step {s s' : AuditWriter M} {op : AuditWriterOp M}
    (hstep : s.step? day toVec op = some s') :
    s'.log.redactPii = s.log.redactPii ∧ s'.log.captureContent = s.log.captureContent := by
  have hlog {log log' : AuditLog M} {op : AuditOp M} (h : log.step? op = some log') :
      log'.redactPii = log.redactPii ∧ log'.captureContent = log.captureContent := by
    rcases op with event | -
    · rw [AuditLog.step?] at h
      split at h <;> obtain rfl := Option.some.inj h <;> exact ⟨rfl, rfl⟩
    · rw [AuditLog.step?] at h
      split at h
      · cases h
      · obtain rfl := Option.some.inj h
        exact ⟨rfl, rfl⟩
  rcases op with event | - | result
  · obtain ⟨log, h, rfl⟩ := Option.map_eq_some_iff.1 hstep
    exact hlog h
  · rw [step?] at hstep
    split at hstep
    · obtain ⟨log, h, rfl⟩ := Option.map_eq_some_iff.1 hstep
      exact hlog h
    · cases hstep
  · obtain ⟨event, -, rfl⟩ := Option.map_eq_some_iff.1 hstep
    exact ⟨rfl, rfl⟩

theorem accounted_invariant (redactPii captureContent : Bool) :
    (runs day toVec redactPii captureContent).Invariant fun s ↦
      s.Accounted day toVec ∧ s.log.redactPii = redactPii ∧
        s.log.captureContent = captureContent where
  init s hs := by
    obtain rfl : s = start redactPii captureContent := hs
    exact ⟨⟨rfl, rfl, fun _ ↦ rfl⟩, rfl, rfl⟩
  step s op s' h hstep := by
    obtain ⟨hredact, hcapture⟩ := flags_step hstep
    exact ⟨h.1.step hstep, hredact.trans h.2.1, hcapture.trans h.2.2⟩

/-- What a log and its writer owe whoever reads the files. -/
structure OneLineEach (day : M → String) (toVec : AuditEvent M → Option (List UInt8))
    (redactPii captureContent : Bool) (s : AuditWriter M) : Prop where
  accounted : s.Accounted day toVec
  /-- No event reached the writer with content, unless content is captured, or with a secret,
  unless redaction is off. -/
  guarded : ∀ e ∈ s.settled.map Prod.fst,
    (captureContent = false → e.messages = [] ∧ e.response = none) ∧
      (redactPii = true → (∀ m ∈ e.messages, Redactor.Clean m.content) ∧
        ∀ text ∈ e.response, Redactor.Clean text)
  /-- A line for each write that succeeded, in the order of the writes, ending with what was
  written. -/
  lines : ∀ d, List.Forall₂ (fun line text ↦ line <:+ text) (wholeLines (s.writesOf day toVec d))
    (Lines.complete newline (s.files d))
  /-- And nothing besides, where no write broke off. -/
  untorn : ∀ d, NoneTorn (s.writesOf day toVec d) →
    Lines.complete newline (s.files d) = wholeLines (s.writesOf day toVec d) ∧
      Lines.rest newline (s.files d) = []

/-- An event of a day. -/
def dayEvent (d : String) : AuditEvent String := ⟨d, [⟨"user", "hello"⟩], none⟩

/-- The same line for every event: an empty object. -/
def emptyLine (_ : AuditEvent String) : Option (List UInt8) := some [123, 125]

/-- Two events of a day, the first of which is torn. -/
def tornThenWhole : List (AuditWriterOp String) :=
  [.log (dayEvent "2026-01-02"), .log (dayEvent "2026-01-02"), .receive, .write (.torn 1), .receive,
    .write .whole]

theorem start_mem (redactPii captureContent : Bool) :
    start (M := M) redactPii captureContent = start redactPii captureContent := rfl

end AuditWriter

end Himadri
