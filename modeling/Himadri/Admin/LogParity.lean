import Himadri.Admin.ModelTables
import Himadri.Admin.RequestLog
import Himadri.Core.Lists
import Himadri.Core.Paging
import Himadri.Transition.System

/-!
# Request logs in two stores

The request logs of `postgres_backends`, a queue and the table its background writer fills, beside
those in memory (`LogPair`). Both stores take the same writes and deletes; the queue is drained
before anything is read or deleted.

Postgres takes no notice of a stage that a query names, sorts by time where the store in memory
lists in order of writing, and deletes what meets all filters where the store in memory deletes what
matches any field. The stores hold the same entries in every run that stays clear of these, and then
a query is answered as it should be exactly when it is clear of them too (`logs_agree`).
-/

namespace Himadri

/-! ### Postgres -/

/-- `PostgresRequestLogStore`: the queue of its background writer, and the table. -/
structure PostgresRequestLogStore where
  queue : List RequestLogEntry
  rows : List RequestLogEntry

namespace PostgresRequestLogStore

/-- `REQUEST_LOG_QUEUE_CAPACITY`. -/
def queueCapacity : ℕ := 8192

/-- What a column `VARCHAR(n)` keeps of a text: spaces beyond its length are cut off. -/
def varchar (n : ℕ) (s : String) : Option String :=
  if !SqlDialect.postgres.text s then none
  else if s.length ≤ n then some s
  else if (s.toList.drop n).all (· == ' ') then some (String.ofList (s.toList.take n))
  else none

/-- `TIMESTAMPTZ` counts microseconds, the gateway nanoseconds. -/
def micros (t : ℕ) : ℕ := t / 1000 * 1000

/-- The row that an entry is inserted as. Tokens are `u32`, which `as i32` and back keeps. -/
def row (e : RequestLogEntry) : Option RequestLogEntry := do
  let traceId ← varchar 255 e.traceId
  let stage ← varchar 50 e.stage
  let model ← varchar 255 e.model
  let provider ← varchar 255 e.provider
  if e.errorMessage.all SqlDialect.postgres.text then
    some { e with traceId, stage, model, provider, createdAt := micros e.createdAt }
  else none

/-- `as i64` does not turn the number negative. -/
def signed (n : ℕ) : Bool := n < UInt64.size / 2

/-- What Postgres says of a zero byte in a text that is bound. -/
def invalidText : String :=
  "error returned from database: invalid byte sequence for encoding \"UTF8\": 0x00"

end PostgresRequestLogStore

open PostgresRequestLogStore

/-- The texts of the query can be bound. -/
def RequestLogQuery.bindable (query : RequestLogQuery) : Bool :=
  query.model.all SqlDialect.postgres.text && query.provider.all SqlDialect.postgres.text

/-- The `WHERE` of the `SELECT`. -/
def RequestLogQuery.accepts (query : RequestLogQuery) (e : RequestLogEntry) : Bool :=
  query.model.all (· == e.model) && query.provider.all (· == e.provider) &&
    query.since.all (micros · ≤ e.createdAt)

/-- The texts of the query can be bound. -/
def MaintenanceQuery.bindable (query : MaintenanceQuery) : Bool :=
  query.model.all SqlDialect.postgres.text && query.provider.all SqlDialect.postgres.text

/-- The `WHERE` of the `DELETE`. -/
def MaintenanceQuery.accepts (query : MaintenanceQuery) (e : RequestLogEntry) : Bool :=
  query.model.all (· == e.model) && query.provider.all (· == e.provider) &&
    query.before.all (e.createdAt < micros ·)

namespace PostgresRequestLogStore

instance : RequestLogStore PostgresRequestLogStore where
  write store entry :=
    if store.queue.length < queueCapacity then { store with queue := store.queue ++ [entry] }
    else store
  list store query :=
    let accepted := store.rows.filter query.accepts
    if !query.bindable then .error invalidText
    else if !query.offset.all signed then
      .error "error returned from database: OFFSET must not be negative"
    else if !query.limit.all signed then
      .error "error returned from database: LIMIT must not be negative"
    else .ok {
      data := Paging.page (query.offset.getD 0) (query.limit.getD 100)
        (Paging.descending (·.createdAt) accepted)
      total := accepted.length }
  delete store query :=
    if !query.bindable then (store, .error invalidText)
    else ({ store with rows := store.rows.filter (!query.accepts ·) },
      .ok (store.rows.countP query.accepts))

/-- The background writer takes an entry off the queue; a failing `INSERT` drops it. -/
def persist (store : PostgresRequestLogStore) : PostgresRequestLogStore :=
  match store.queue with
  | [] => store
  | e :: queue => ⟨queue, store.rows ++ (row e).toList⟩

end PostgresRequestLogStore

/-! ### Runs -/

/-- The two stores. -/
structure LogPair where
  memory : InMemoryRequestLogStore
  postgres : PostgresRequestLogStore

/-- What a run does: a write to both stores, a row of the background writer, a delete in both. -/
inductive LogStep
  | write (entry : RequestLogEntry)
  | persist
  | delete (query : MaintenanceQuery)

namespace LogPair

variable (s : LogPair)

/-- The stores after a step. Writes stay below the cap and the capacity and come at distinct times,
and the queue is drained before a delete. -/
def step? : LogStep → Option LogPair
  | .write entry =>
    if s.memory.entries.length < s.memory.maxEntries ∧
        s.postgres.queue.length < queueCapacity ∧
        entry.createdAt ∉ s.memory.entries.map (·.createdAt) then
      some ⟨RequestLogStore.write s.memory entry, RequestLogStore.write s.postgres entry⟩
    else none
  | .persist => some { s with postgres := s.postgres.persist }
  | .delete query =>
    if s.postgres.queue = [] then
      some ⟨(RequestLogStore.delete s.memory query).1, (RequestLogStore.delete s.postgres query).1⟩
    else none

/-- The runs, from two empty stores. -/
def runs : TransitionSystem LogPair LogStep := .ofPartial (· = ⟨.new, [], []⟩) step?

/-- Both stores list the page of the entries that satisfy the query. -/
def ListsAlike (query : RequestLogQuery) : Prop :=
  RequestLogStore.list s.memory query = .ok (query.page s.memory.entries) ∧
    RequestLogStore.list s.postgres query = .ok (query.page s.memory.entries)

end LogPair

/-- The entry satisfies every filter that is present. -/
def MaintenanceQuery.satisfied (query : MaintenanceQuery) (e : RequestLogEntry) : Bool :=
  query.before.all (e.createdAt < ·) && (query.stage.all (· == e.stage) &&
    query.model.all (· == e.model) && query.provider.all (· == e.provider))

namespace LogPair

variable (s : LogPair)

/-- Both stores delete the entries that satisfy the query, and no other. -/
def DeletesAlike (query : MaintenanceQuery) : Prop :=
  RequestLogStore.delete s.memory query =
      ({ s.memory with entries := s.memory.entries.filter (!query.satisfied ·) },
        .ok (s.memory.entries.countP query.satisfied)) ∧
    RequestLogStore.delete s.postgres query =
      ({ s.postgres with rows := s.memory.entries.filter (!query.satisfied ·) },
        .ok (s.memory.entries.countP query.satisfied))

/-- After the write, and once the writer has come to it, both stores hold the same. -/
def WritesAlike (entry : RequestLogEntry) : Prop :=
  (RequestLogStore.write s.postgres entry).persist.rows =
    (RequestLogStore.write s.memory entry).entries

end LogPair

/-! ### The conditions -/

/-- The columns keep the entry as it is. -/
structure RequestLogEntry.Fits (e : RequestLogEntry) : Prop where
  traceId : e.traceId.length ≤ 255 ∧ SqlDialect.postgres.text e.traceId
  stage : e.stage.length ≤ 50 ∧ SqlDialect.postgres.text e.stage
  model : e.model.length ≤ 255 ∧ SqlDialect.postgres.text e.model
  provider : e.provider.length ≤ 255 ∧ SqlDialect.postgres.text e.provider
  errorMessage : e.errorMessage.all SqlDialect.postgres.text
  createdAt : e.createdAt % 1000 = 0

/-- No stage and no fraction of a microsecond makes a difference to the query, and its page is
sorted already. -/
structure RequestLogQuery.Plain (query : RequestLogQuery) (entries : List RequestLogEntry) :
    Prop where
  bindable : query.bindable
  offset : query.offset.all signed
  limit : query.limit.all signed
  stage : ∀ e ∈ entries, query.accepts e → query.stage.all (· == e.stage)
  since : ∀ e ∈ entries, query.accepts e → query.since.all (· ≤ e.createdAt)
  sorted : Paging.InPlace (·.createdAt) (query.offset.getD 0) (query.limit.getD 100)
    (entries.filter query.selects)

/-- An entry that is old enough matches all fields that are named or none, and one is named; no
stage and no fraction of a microsecond makes a difference to Postgres. -/
structure MaintenanceQuery.Plain (query : MaintenanceQuery) (entries : List RequestLogEntry) :
    Prop where
  bindable : query.bindable
  named : ∀ e ∈ entries, query.before.all (e.createdAt < ·) →
    (query.stage.any (· == e.stage) || query.model.any (· == e.model) ||
      query.provider.any (· == e.provider)) =
    (query.stage.all (· == e.stage) && query.model.all (· == e.model) &&
      query.provider.all (· == e.provider))
  stage : ∀ e ∈ entries, query.accepts e → query.stage.all (· == e.stage)
  before : ∀ e ∈ entries, query.satisfied e → query.before.all (e.createdAt < micros ·)

/-- Entries are written that the columns keep, and deletes are plain. -/
def LogPair.Plain (s : LogPair) : LogStep → Prop
  | .write entry => entry.Fits
  | .persist => True
  | .delete query => query.Plain s.memory.entries

/-! ### One call -/

namespace PostgresRequestLogStore

theorem varchar_eq_self_iff {n : ℕ} {s : String} :
    varchar n s = some s ↔ s.length ≤ n ∧ SqlDialect.postgres.text s := by
  rw [varchar]
  rcases htext : SqlDialect.postgres.text s with - | -
  · simp
  · rw [if_neg (by simp)]
    by_cases hlength : s.length ≤ n
    · simp [hlength]
    · rw [if_neg hlength]
      -- what is cut off is shorter
      have hcut : String.ofList (s.toList.take n) ≠ s := by
        intro heq
        have hlen := congrArg String.length heq
        rw [String.length_ofList, List.length_take, String.length_toList] at hlen
        omega
      split <;> simp [hlength, hcut]

theorem row_eq_self_iff {e : RequestLogEntry} : row e = some e ↔ e.Fits := by
  constructor
  · intro h
    obtain ⟨traceId, htraceId, h⟩ := Option.bind_eq_some_iff.1 h
    obtain ⟨stage, hstage, h⟩ := Option.bind_eq_some_iff.1 h
    obtain ⟨model, hmodel, h⟩ := Option.bind_eq_some_iff.1 h
    obtain ⟨provider, hprovider, h⟩ := Option.bind_eq_some_iff.1 h
    obtain ⟨herror, h⟩ := Option.ite_none_right_eq_some.1 h
    have hrow := Option.some_inj.1 h
    obtain rfl : traceId = e.traceId := congrArg RequestLogEntry.traceId hrow
    obtain rfl : stage = e.stage := congrArg RequestLogEntry.stage hrow
    obtain rfl : model = e.model := congrArg RequestLogEntry.model hrow
    obtain rfl : provider = e.provider := congrArg RequestLogEntry.provider hrow
    have htime : micros e.createdAt = e.createdAt := congrArg RequestLogEntry.createdAt hrow
    rw [micros] at htime
    exact ⟨varchar_eq_self_iff.1 htraceId, varchar_eq_self_iff.1 hstage,
      varchar_eq_self_iff.1 hmodel, varchar_eq_self_iff.1 hprovider, herror, by omega⟩
  · intro h
    have htime : micros e.createdAt = e.createdAt := by
      have := h.createdAt
      rw [micros]
      omega
    rw [row, varchar_eq_self_iff.2 h.traceId, varchar_eq_self_iff.2 h.stage,
      varchar_eq_self_iff.2 h.model, varchar_eq_self_iff.2 h.provider, htime]
    exact if_pos h.errorMessage

end PostgresRequestLogStore

section Calls

variable {entries : List RequestLogEntry}

theorem RequestLogQuery.accepts_of_selects {query : RequestLogQuery} {e : RequestLogEntry}
    (h : query.selects e) : query.accepts e := by
  rw [selects, Bool.and_eq_true, Bool.and_eq_true, Bool.and_eq_true] at h
  rw [accepts, Bool.and_eq_true, Bool.and_eq_true]
  refine ⟨⟨h.1.1.2, h.1.2⟩, ?_⟩
  have hsince := h.2
  rw [Option.all_eq_true] at hsince ⊢
  intro t ht
  have := of_decide_eq_true (hsince t ht)
  exact decide_eq_true (by rw [micros]; omega)

/-- The statement selects what the query does where no stage and no fraction of a microsecond makes
a difference. -/
theorem RequestLogQuery.selects_iff {query : RequestLogQuery} {e : RequestLogEntry} :
    query.selects e ↔ query.accepts e ∧ query.stage.all (· == e.stage) ∧
      query.since.all (· ≤ e.createdAt) := by
  constructor
  · intro h
    refine ⟨accepts_of_selects h, ?_⟩
    rw [selects, Bool.and_eq_true, Bool.and_eq_true, Bool.and_eq_true] at h
    exact ⟨h.1.1.1, h.2⟩
  · rintro ⟨haccepts, hstage, hsince⟩
    rw [accepts, Bool.and_eq_true, Bool.and_eq_true] at haccepts
    rw [selects, Bool.and_eq_true, Bool.and_eq_true, Bool.and_eq_true]
    exact ⟨⟨⟨hstage, haccepts.1.1⟩, haccepts.1.2⟩, hsince⟩

/-- **Lists**: the page of the table is the page of the entries exactly when the query is plain. -/
theorem RequestLogQuery.list_eq_iff (query : RequestLogQuery) (queue : List RequestLogEntry)
    (hdistinct : (entries.map (·.createdAt)).Nodup) :
    RequestLogStore.list (PostgresRequestLogStore.mk queue entries) query =
      .ok (query.page entries) ↔ query.Plain entries := by
  -- among the accepted entries, the selected ones
  have hfilter : entries.filter query.selects =
      (entries.filter query.accepts).filter query.selects := by
    rw [List.filter_filter]
    refine List.filter_congr fun e _ ↦ ?_
    rw [Bool.eq_iff_iff, Bool.and_eq_true]
    exact ⟨fun h ↦ ⟨h, accepts_of_selects h⟩, And.left⟩
  have hlist : RequestLogStore.list (PostgresRequestLogStore.mk queue entries) query =
      if !query.bindable then .error invalidText
      else if !query.offset.all signed then
        .error "error returned from database: OFFSET must not be negative"
      else if !query.limit.all signed then
        .error "error returned from database: LIMIT must not be negative"
      else .ok ⟨Paging.page (query.offset.getD 0) (query.limit.getD 100)
        (Paging.descending (·.createdAt) (entries.filter query.accepts)),
        (entries.filter query.accepts).length⟩ := rfl
  rw [hlist]
  constructor
  · intro h
    rcases hbind : query.bindable with - | -
    · rw [hbind] at h
      cases h
    rcases hoffset : query.offset.all signed with - | -
    · rw [hbind, hoffset] at h
      cases h
    rcases hlimit : query.limit.all signed with - | -
    · rw [hbind, hoffset, hlimit] at h
      cases h
    rw [hbind, hoffset, hlimit] at h
    have hresult := Except.ok.inj h
    have htotal : (entries.filter query.accepts).length = (entries.filter query.selects).length :=
      congrArg RequestLogListResult.total hresult
    have hall : ∀ e ∈ entries, query.accepts e → query.selects e := by
      rw [hfilter] at htotal
      intro e he haccepts
      exact List.length_filter_eq_length_iff.1 htotal.symm e (List.mem_filter.2 ⟨he, haccepts⟩)
    have hsame : entries.filter query.accepts = entries.filter query.selects := by
      refine List.filter_congr fun e he ↦ ?_
      rw [Bool.eq_iff_iff]
      exact ⟨hall e he, accepts_of_selects⟩
    have hpage := congrArg RequestLogListResult.data hresult
    rw [hsame] at hpage
    exact ⟨hbind, hoffset, hlimit, fun e he ha ↦ (selects_iff.1 (hall e he ha)).2.1,
      fun e he ha ↦ (selects_iff.1 (hall e he ha)).2.2,
      (Paging.page_descending_iff (hdistinct.sublist (List.filter_sublist.map _)) _ _).1
        hpage.symm⟩
  · intro h
    have hsame : entries.filter query.accepts = entries.filter query.selects := by
      refine List.filter_congr fun e he ↦ ?_
      rw [Bool.eq_iff_iff]
      exact ⟨fun ha ↦ selects_iff.2 ⟨ha, h.stage e he ha, h.since e he ha⟩, accepts_of_selects⟩
    rw [h.bindable, h.offset, h.limit, hsame, ← (Paging.page_descending_iff
      (hdistinct.sublist (List.filter_sublist.map _)) _ _).2 h.sorted]
    rfl

theorem MaintenanceQuery.satisfied_iff {query : MaintenanceQuery} {e : RequestLogEntry} :
    query.satisfied e ↔ query.before.all (e.createdAt < ·) ∧ query.stage.all (· == e.stage) ∧
      query.model.all (· == e.model) ∧ query.provider.all (· == e.provider) := by
  rw [satisfied, Bool.and_eq_true, Bool.and_eq_true, Bool.and_eq_true, and_assoc]

/-- The store in memory removes what is old enough and matches some field that is named. -/
theorem MaintenanceQuery.retains_eq (query : MaintenanceQuery) (e : RequestLogEntry) :
    query.retains e = !(query.before.all (e.createdAt < ·) &&
      (query.stage.any (· == e.stage) || query.model.any (· == e.model) ||
        query.provider.any (· == e.provider))) := by
  have hsymm (o : Option String) (x : String) : o.any (x == ·) = o.any (· == x) := by
    rcases o with - | y
    · rfl
    · exact Bool.beq_comm
  have hold : query.before.any (· ≤ e.createdAt) = !query.before.all (e.createdAt < ·) := by
    rcases query.before with - | t
    · rfl
    · show decide (t ≤ e.createdAt) = !decide (e.createdAt < t)
      rw [← decide_not]
      exact decide_eq_decide.2 not_lt.symm
  rw [retains, hold, hsymm, hsymm, hsymm, Bool.not_and]

/-- What the statement deletes satisfies the query but for the stage. -/
theorem MaintenanceQuery.accepts_iff {query : MaintenanceQuery} {e : RequestLogEntry} :
    query.accepts e ∧ query.stage.all (· == e.stage) ↔
      query.satisfied e ∧ query.before.all (e.createdAt < micros ·) := by
  have hold : query.before.all (e.createdAt < micros ·) →
      query.before.all (e.createdAt < ·) := by
    intro h
    rw [Option.all_eq_true] at h ⊢
    intro t ht
    have hlt := of_decide_eq_true (h t ht)
    exact decide_eq_true (by rw [micros] at hlt; omega)
  rw [satisfied_iff, accepts, Bool.and_eq_true, Bool.and_eq_true]
  constructor
  · rintro ⟨⟨⟨hmodel, hprovider⟩, hbefore⟩, hstage⟩
    exact ⟨⟨hold hbefore, hstage, hmodel, hprovider⟩, hbefore⟩
  · rintro ⟨⟨-, hstage, hmodel, hprovider⟩, hbefore⟩
    exact ⟨⟨⟨hmodel, hprovider⟩, hbefore⟩, hstage⟩

/-- **Deletes**: both stores delete what satisfies the query exactly when it is plain. -/
theorem LogPair.deletesAlike_iff (queue : List RequestLogEntry) (max : ℕ)
    (query : MaintenanceQuery) :
    LogPair.DeletesAlike ⟨⟨entries, max⟩, ⟨queue, entries⟩⟩ query ↔ query.Plain entries := by
  have hdelete : RequestLogStore.delete (PostgresRequestLogStore.mk queue entries) query =
      if !query.bindable then (⟨queue, entries⟩, .error invalidText)
      else (⟨queue, entries.filter (!query.accepts ·)⟩, .ok (entries.countP query.accepts)) := rfl
  constructor
  · rintro ⟨hmemory, hpostgres⟩
    have hkept : entries.filter query.retains = entries.filter (!query.satisfied ·) :=
      congrArg (fun r ↦ r.1.entries) hmemory
    rw [hdelete] at hpostgres
    rcases hbind : query.bindable with - | -
    · rw [hbind] at hpostgres
      have herror : Except.error invalidText = Except.ok _ := congrArg Prod.snd hpostgres
      cases herror
    rw [hbind] at hpostgres
    have hleft : entries.filter (!query.accepts ·) = entries.filter (!query.satisfied ·) :=
      congrArg (fun r ↦ r.1.rows) hpostgres
    have hsame : ∀ e ∈ entries, query.accepts e = query.satisfied e := fun e he ↦
      Bool.not_inj (Lists.filter_inj.1 hleft e he)
    refine ⟨hbind, fun e he hold ↦ ?_, fun e he ha ↦ ?_, fun e he hs ↦ ?_⟩
    · have hretains := Lists.filter_inj.1 hkept e he
      rw [MaintenanceQuery.retains_eq, MaintenanceQuery.satisfied, hold] at hretains
      exact Bool.not_inj hretains
    · rw [hsame e he] at ha
      exact (MaintenanceQuery.satisfied_iff.1 ha).2.1
    · have ha := hs
      rw [← hsame e he] at ha
      exact (MaintenanceQuery.accepts_iff.1 ⟨ha, (MaintenanceQuery.satisfied_iff.1 hs).2.1⟩).2
  · intro h
    have hretains : ∀ e ∈ entries, query.retains e = !query.satisfied e := by
      intro e he
      rw [MaintenanceQuery.retains_eq, MaintenanceQuery.satisfied]
      rcases hold : query.before.all (e.createdAt < ·) with - | -
      · rfl
      · rw [h.named e he hold]
    have hsame : ∀ e ∈ entries, query.accepts e = query.satisfied e := by
      intro e he
      rw [Bool.eq_iff_iff]
      exact ⟨fun ha ↦ (MaintenanceQuery.accepts_iff.1 ⟨ha, h.stage e he ha⟩).1,
        fun hs ↦ (MaintenanceQuery.accepts_iff.2 ⟨hs, h.before e he hs⟩).1⟩
    have hkept : entries.filter query.retains = entries.filter (!query.satisfied ·) :=
      Lists.filter_inj.2 hretains
    have hremoved : entries.length - (entries.filter query.retains).length =
        entries.countP query.satisfied := by
      have hsplit := List.length_eq_countP_add_countP query.satisfied (l := entries)
      have hcount : (entries.filter (!query.satisfied ·)).length =
          entries.countP fun e ↦ decide ¬query.satisfied e = true := by
        rw [← List.countP_eq_length_filter]
        exact List.countP_congr fun e _ ↦ by simp
      rw [hkept, hcount]
      omega
    constructor
    · show ((⟨entries.filter query.retains, max⟩ : InMemoryRequestLogStore),
        Except.ok (entries.length - (entries.filter query.retains).length)) = _
      rw [hremoved, hkept]
    · rw [hdelete, h.bindable, List.countP_congr fun e he ↦ (Bool.eq_iff_iff.1 (hsame e he)),
        Lists.filter_inj.2 fun e he ↦ congrArg not (hsame e he)]
      rfl

/-- **Writes**: the table gets the entry as it is exactly when the columns keep it. -/
theorem LogPair.writesAlike_iff {max : ℕ} (hmax : entries.length < max)
    (entry : RequestLogEntry) :
    LogPair.WritesAlike ⟨⟨entries, max⟩, ⟨[], entries⟩⟩ entry ↔ entry.Fits := by
  rw [LogPair.WritesAlike, InMemoryRequestLogStore.write_of_lt entry hmax,
    ← PostgresRequestLogStore.row_eq_self_iff]
  show entries ++ (row entry).toList = entries ++ [entry] ↔ _
  rw [List.append_cancel_left_eq]
  rcases row entry with - | e
  · simp
  · simp

end Calls

/-! ### Every plain run -/

/-- The entries are those in the table and those still in the queue, which the columns will keep. -/
structure LogPair.Held (s : LogPair) : Prop where
  entries : s.memory.entries = s.postgres.rows ++ s.postgres.queue
  fits : ∀ e ∈ s.postgres.queue, row e = some e
  distinct : (s.memory.entries.map (·.createdAt)).Nodup

namespace LogPair

theorem held_invariant : (runs.guard Plain).Invariant Held where
  init := by
    rintro s rfl
    exact ⟨rfl, fun e he ↦ absurd he List.not_mem_nil, List.nodup_nil⟩
  step := by
    rintro ⟨⟨entries, max⟩, queue, rows⟩ l s' ⟨hentries, hfits, hdistinct⟩ ⟨hstep, hplain⟩
    obtain rfl : entries = rows ++ queue := hentries
    rcases l with entry | - | query
    · obtain ⟨⟨hmax, hcapacity, hnew⟩, hs'⟩ := Option.ite_none_right_eq_some.1 hstep
      obtain rfl := Option.some_inj.1 hs'
      have hmemory := InMemoryRequestLogStore.write_of_lt entry hmax
      have hpostgres : RequestLogStore.write (PostgresRequestLogStore.mk queue rows) entry =
          ⟨queue ++ [entry], rows⟩ := if_pos hcapacity
      rw [hmemory, hpostgres]
      refine ⟨List.append_assoc rows queue [entry], fun e he ↦ ?_, ?_⟩
      · rcases List.mem_append.1 he with he | he
        · exact hfits e he
        · rw [List.mem_singleton.1 he]
          exact PostgresRequestLogStore.row_eq_self_iff.2 hplain
      · show ((rows ++ queue ++ [entry]).map (·.createdAt)).Nodup
        rw [List.map_append]
        exact List.Nodup.append hdistinct (List.nodup_singleton _)
          (List.disjoint_singleton.2 hnew)
    · obtain rfl := Option.some_inj.1 hstep
      rcases queue with - | ⟨e, queue⟩
      · exact ⟨rfl, hfits, hdistinct⟩
      · have hrow : (row e).toList = [e] := by rw [hfits e List.mem_cons_self]; rfl
        refine ⟨?_, fun e' he' ↦ hfits e' (List.mem_cons_of_mem e he'), hdistinct⟩
        show rows ++ e :: queue = rows ++ (row e).toList ++ queue
        rw [hrow, List.append_assoc]
        rfl
    · obtain ⟨hqueue, hs'⟩ := Option.ite_none_right_eq_some.1 hstep
      obtain rfl := Option.some_inj.1 hs'
      obtain rfl : queue = [] := hqueue
      rw [List.append_nil] at hdistinct hplain ⊢
      obtain ⟨hmemory, hpostgres⟩ := (deletesAlike_iff [] max query).2 hplain
      rw [hmemory, hpostgres]
      exact ⟨(List.append_nil _).symm, hfits, hdistinct.sublist (List.filter_sublist.map _)⟩

/-- **The stores agree.** In every run whose writes fit their columns and whose deletes are plain,
both stores hold the same entries once the queue is drained; then both list the page of a query as
they should exactly when the query is plain, both delete what they should exactly when that query
is, and the next entry is kept exactly when it fits. -/
theorem logs_agree {s : LogPair} (hs : (runs.guard Plain).Reachable s)
    (hqueue : s.postgres.queue = []) :
    s.postgres.rows = s.memory.entries ∧
      (∀ query, s.ListsAlike query ↔ query.Plain s.memory.entries) ∧
      (∀ query, s.DeletesAlike query ↔ query.Plain s.memory.entries) ∧
      ∀ entry, s.memory.entries.length < s.memory.maxEntries →
        (s.WritesAlike entry ↔ entry.Fits) := by
  obtain ⟨hentries, -, hdistinct⟩ := held_invariant.of_reachable hs
  rcases s with ⟨⟨entries, max⟩, queue, rows⟩
  obtain rfl : queue = [] := hqueue
  obtain rfl : rows = entries := (hentries.trans (List.append_nil rows)).symm
  refine ⟨rfl, fun query ↦ ?_, deletesAlike_iff [] max, fun entry hmax ↦
    writesAlike_iff hmax entry⟩
  have hmemory : RequestLogStore.list (InMemoryRequestLogStore.mk rows max) query =
      .ok (query.page rows) := rfl
  exact (and_iff_right hmemory).trans (query.list_eq_iff [] hdistinct)

/-- An entry of the model `m` and the provider `p`. -/
def sampleEntry : RequestLogEntry := ⟨"t", "request", "m", "p", 0, 0, 0, none, 1000⟩

/-- The agreement, after one entry. -/
theorem logs_agree_one :
    (∀ query, LogPair.ListsAlike ⟨⟨[sampleEntry], defaultMaxEntries⟩, [], [sampleEntry]⟩ query ↔
      query.Plain [sampleEntry]) ∧
    (∀ query, LogPair.DeletesAlike ⟨⟨[sampleEntry], defaultMaxEntries⟩, [], [sampleEntry]⟩ query ↔
      query.Plain [sampleEntry]) := by
  have hfits : sampleEntry.Fits := by constructor <;> decide
  have hinit : (runs.guard Plain).Reachable ⟨.new, [], []⟩ := .init rfl
  have hwrite : (runs.guard Plain).Reachable
      ⟨⟨[sampleEntry], defaultMaxEntries⟩, [sampleEntry], []⟩ :=
    hinit.step (l := .write sampleEntry) ⟨rfl, hfits⟩
  have hpersist : (runs.guard Plain).Reachable
      ⟨⟨[sampleEntry], defaultMaxEntries⟩, [], [sampleEntry]⟩ :=
    hwrite.step (l := .persist) ⟨by rfl, trivial⟩
  have hagree := logs_agree hpersist rfl
  exact ⟨hagree.2.1, hagree.2.2.1⟩

/-- A delete by model and provider: in memory it removes an entry of that model and another
provider, which stays in the table. -/
theorem logs_diverge : ∃ s, runs.Reachable s ∧ s.postgres.queue = [] ∧
    s.memory.entries = [] ∧ s.postgres.rows = [sampleEntry] :=
  ⟨⟨⟨[], defaultMaxEntries⟩, [], [sampleEntry]⟩,
    TransitionSystem.reachable_of_foldlM rfl
      [.write sampleEntry, .persist, .delete ⟨none, none, some "m", some "q"⟩] (by rfl),
    rfl, rfl, rfl⟩

end LogPair

end Himadri
