import Himadri.Admin.RequestLog
import Himadri.Gateway.Stream
import Mathlib.Data.List.Basic

/-!
# The request log

The gateway holds its log store for the readers, and the auditor it is built with holds one for what
it writes. Both are handles of stores that others may hold as well (`LogHandles`); replacing the
first leaves the second as it was.

A run builds a gateway with any replacements and then serves calls of both paths and deletions
(`LogRun`).
-/

namespace Himadri

/-! ### Entries -/

/-- The entry `record_usage` writes; its id and its time are drawn there. -/
def recordUsage (provider model : String) (usage : Usage) (error : Option String)
    (stamp : String × ℕ) : RequestLogEntry where
  traceId := stamp.1
  stage := "completed"
  model
  provider
  promptTokens := usage.promptTokens
  completionTokens := usage.completionTokens
  totalTokens := usage.totalTokens
  errorMessage := error
  createdAt := stamp.2

/-- What `record_full` writes to the log. -/
def RequestEvent.logEntry (event : RequestEvent) : String × ℕ → RequestLogEntry :=
  recordUsage event.provider event.model
    ⟨event.tokensPrompt, event.tokensCompletion, event.tokensTotal⟩ event.error

/-- What `record_accounting` writes to the log. -/
def AccountOutcome.logEntry (outcome : AccountOutcome) : String × ℕ → RequestLogEntry :=
  recordUsage outcome.provider outcome.model (outcome.usage.getD ⟨0, 0, 0⟩) outcome.error

/-! ### The two handles -/

/-- The store `request_log` returns and the one `LiveRequestAuditor` writes to. -/
structure LogHandles where
  requestLog : ℕ
  auditor : ℕ
  deriving DecidableEq

namespace LogHandles

/-- `Gateway::new`, with the handle of the store it makes. -/
def new (original : ℕ) : LogHandles := ⟨original, original⟩

/-- `Gateway::set_request_log_store`. -/
def setRequestLogStore (handles : LogHandles) (store : ℕ) : LogHandles :=
  { handles with requestLog := store }

/-- A gateway built with replacements one after another. -/
def build (original : ℕ) (stores : List ℕ) : LogHandles :=
  stores.foldl setRequestLogStore (new original)

theorem build_eq (original : ℕ) (stores : List ℕ) :
    build original stores = ⟨stores.getLast?.getD original, original⟩ := by
  induction stores using List.reverseRecOn with
  | nil => rfl
  | append_singleton stores store ih =>
    rw [build, List.foldl_concat, List.getLast?_concat, ← build, ih]
    rfl

/-- The replacements leave the original in place exactly when there is none or the last is the
original itself. -/
theorem build_requestLog_eq_iff {original : ℕ} {stores : List ℕ} :
    (build original stores).requestLog = original ↔
      ∀ store ∈ stores.getLast?, store = original := by
  rw [build_eq]
  cases stores.getLast? <;> simp

end LogHandles

/-! ### Runs -/

/-- A call that is served. A stream is polled some times and then dropped; the stamps are those of
the entries it writes. -/
inductive LogCall
  | route (g : Gateway) (env : RouteEnv) (request : ChatCompletionRequest)
      (auth : Option AuthContext) (remoteIp : Option String) (stamp : ℕ → String × ℕ)
  | routeStream (g : Gateway) (env : StreamEnv) (request : ChatCompletionRequest)
      (auth : Option AuthContext) (remoteIp : Option String) (elapsedMs : ℕ → ℕ) (polls : ℕ)
      (stamp : ℕ → String × ℕ)
  | deleteLogs (query : MaintenanceQuery)

/-- What the auditor writes to the log in a call. -/
def LogCall.entries : LogCall → List RequestLogEntry
  | .route g env request auth remoteIp stamp =>
    (g.route env request auth remoteIp).records.mapIdx fun i event ↦ event.logEntry (stamp i)
  | .routeStream g env request auth remoteIp elapsedMs polls stamp =>
    match (g.routeStream env auth request remoteIp).result with
    | .ok stream =>
      (stream.accounts elapsedMs polls).mapIdx fun i outcome ↦ outcome.logEntry (stamp i)
    | .error _ => []
  | .deleteLogs _ => []

/-- The stores by their handles, and beside them every write the auditor made, with the handle it
went to, and what was recorded and not deleted since. -/
structure LogRun (σ : Type*) where
  handles : LogHandles
  stores : ℕ → InMemoryRequestLogStore ⊕ σ
  writes : List (ℕ × RequestLogEntry)
  kept : List RequestLogEntry

namespace LogRun

variable {σ : Type*}

/-- The gateway is built and nothing is served yet; the store it made is empty. -/
def start (others : ℕ → InMemoryRequestLogStore ⊕ σ) (original : ℕ) (stores : List ℕ) :
    LogRun σ where
  handles := .build original stores
  stores := Function.update others original (.inl .new)
  writes := []
  kept := []

variable [RequestLogStore σ]

/-- The auditor writes an entry. -/
def write (s : LogRun σ) (entry : RequestLogEntry) : LogRun σ :=
  { s with
    stores := Function.update s.stores s.handles.auditor
      (RequestLogStore.write (s.stores s.handles.auditor) entry)
    writes := s.writes ++ [(s.handles.auditor, entry)]
    kept := s.kept ++ [entry] }

/-- The handler `list_logs`. -/
def listLogs (s : LogRun σ) (query : RequestLogQuery) : Except String RequestLogListResult :=
  RequestLogStore.list (s.stores s.handles.requestLog) query

/-- The handler `delete_logs`. -/
def deleteLogs (s : LogRun σ) (query : MaintenanceQuery) : LogRun σ :=
  { s with
    stores := Function.update s.stores s.handles.requestLog
      (RequestLogStore.delete (s.stores s.handles.requestLog) query).1
    kept := s.kept.filter query.retains }

/-- One call. -/
def serve (s : LogRun σ) (call : LogCall) : LogRun σ :=
  match call with
  | .deleteLogs query => s.deleteLogs query
  | call => call.entries.foldl write s

/-- Every record the auditor wrote went to the store that is read; and as long as no more was
recorded than is retained, that store lists just what was recorded and not deleted. -/
structure Reaches (s : LogRun σ) : Prop where
  written : ∀ w ∈ s.writes, w.1 = s.handles.requestLog
  listed : s.writes.length ≤ defaultMaxEntries → ∀ query, s.listLogs query = .ok (query.page s.kept)

/-- The gateway and its auditor share the store that was made with them. -/
structure Shared (original : ℕ) (s : LogRun σ) : Prop where
  handles : s.handles = .new original
  written : ∀ w ∈ s.writes, w.1 = original
  length : s.kept.length ≤ s.writes.length
  store : s.writes.length ≤ defaultMaxEntries →
    s.stores original = .inl ⟨s.kept, defaultMaxEntries⟩

variable {s : LogRun σ} {original : ℕ}

theorem Shared.reaches (h : s.Shared original) : s.Reaches := by
  refine ⟨?_, fun hbelow query ↦ ?_⟩
  · rw [h.handles]
    exact h.written
  · rw [listLogs, h.handles]
    show RequestLogStore.list (s.stores original) query = _
    rw [h.store hbelow]
    rfl

theorem Shared.write (h : s.Shared original) (entry : RequestLogEntry) :
    (s.write entry).Shared original := by
  have hauditor : s.handles.auditor = original := congrArg LogHandles.auditor h.handles
  refine ⟨h.handles, fun w hw ↦ ?_, ?_, fun hbelow ↦ ?_⟩
  · rcases List.mem_append.1 hw with hold | hnew
    · exact h.written w hold
    · rw [List.mem_singleton.1 hnew]
      exact hauditor
  · show (s.kept ++ [entry]).length ≤ (s.writes ++ [_]).length
    rw [List.length_append, List.length_append]
    exact Nat.add_le_add_right h.length 1
  · have hlength : s.writes.length < defaultMaxEntries := by
      have hwrites : (s.write entry).writes.length = s.writes.length + 1 := List.length_append ..
      rwa [hwrites] at hbelow
    show Function.update s.stores s.handles.auditor _ original = _
    rw [hauditor, Function.update_self, h.store hlength.le]
    exact congrArg Sum.inl
      (InMemoryRequestLogStore.write_of_lt entry (h.length.trans_lt hlength))

theorem Shared.deleteLogs (h : s.Shared original) (query : MaintenanceQuery) :
    (s.deleteLogs query).Shared original := by
  have hreader : s.handles.requestLog = original := congrArg LogHandles.requestLog h.handles
  refine ⟨h.handles, h.written, ?_, fun hbelow ↦ ?_⟩
  · exact (List.length_filter_le ..).trans h.length
  · show Function.update s.stores s.handles.requestLog _ original = _
    rw [hreader, Function.update_self, h.store hbelow]
    rfl

theorem Shared.serve (h : s.Shared original) (call : LogCall) : (s.serve call).Shared original := by
  have hwrites (entries : List RequestLogEntry) :
      (entries.foldl LogRun.write s).Shared original := by
    induction entries generalizing s with
    | nil => exact h
    | cons entry entries ih => exact ih (h.write entry)
  cases call with
  | route g env request auth remoteIp stamp => exact hwrites _
  | routeStream g env request auth remoteIp elapsedMs polls stamp => exact hwrites _
  | deleteLogs query => exact h.deleteLogs query

omit [RequestLogStore σ] in
theorem shared_start {others : ℕ → InMemoryRequestLogStore ⊕ σ} {stores : List ℕ}
    (h : (LogHandles.build original stores).requestLog = original) :
    (start others original stores).Shared original := by
  refine ⟨?_, fun w hw ↦ (by cases hw), Nat.le_refl _, fun _ ↦ Function.update_self ..⟩
  show LogHandles.build original stores = _
  rw [LogHandles.build_eq] at h ⊢
  exact congrArg (LogHandles.mk · original) h

/-- A call that is recorded. -/
def recordedCall : LogCall :=
  .route Gateway.oneModel .plain (.ofMessages "gpt-4o" [.user "hello"]) none none
    fun _ ↦ ("trace", 0)

/-- **What is recorded reaches the store that is read, in every run, exactly when the gateway was
built without replacing its store by another in the end.** -/
theorem reaches_iff {others : ℕ → InMemoryRequestLogStore ⊕ σ} {stores : List ℕ} :
    (∀ calls : List LogCall, (calls.foldl serve (start others original stores)).Reaches) ↔
      ∀ store ∈ stores.getLast?, store = original := by
  rw [← LogHandles.build_requestLog_eq_iff]
  constructor
  · intro h
    -- a single recorded call shows where the auditor writes
    obtain ⟨entry, hentry⟩ : ∃ entry, recordedCall.entries = [entry] := ⟨_, rfl⟩
    have hwritten := (h [recordedCall]).written
    have hserve : (start others original stores).serve recordedCall =
        (start others original stores).write entry := by
      show recordedCall.entries.foldl write _ = _
      rw [hentry]
      rfl
    rw [List.foldl_cons, List.foldl_nil, hserve] at hwritten
    have hhandle : (LogHandles.build original stores).auditor =
        (LogHandles.build original stores).requestLog :=
      hwritten _ (List.mem_append_right _ List.mem_cons_self)
    rw [← hhandle, LogHandles.build_eq]
  · intro h calls
    have hshared : (calls.foldl serve (start others original stores)).Shared original := by
      induction calls using List.reverseRecOn with
      | nil => exact shared_start h
      | append_singleton calls call ih =>
        rw [List.foldl_concat]
        exact ih.serve call
    exact hshared.reaches

/-- A persistent store is set while the gateway is built. -/
theorem replaced_store_unwritten : ¬ ∀ calls : List LogCall,
    (calls.foldl serve
      (start (fun _ ↦ Sum.inr InMemoryRequestLogStore.new) 0 [1])).Reaches := by
  intro h
  have hhandle := (h [recordedCall]).written _ (List.mem_cons_self)
  exact absurd hhandle (by decide)

end LogRun

end Himadri
