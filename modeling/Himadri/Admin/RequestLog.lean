import Mathlib.Data.List.Basic

/-!
# Request logs

The trait `RequestLogStore` of `himadri-admin`'s `request_log` and the store in memory, a bounded
ring that evicts the oldest entry first.
-/

namespace Himadri

/-- `RequestLogEntry`. -/
structure RequestLogEntry where
  traceId : String
  stage : String
  model : String
  provider : String
  promptTokens : ℕ
  completionTokens : ℕ
  totalTokens : ℕ
  errorMessage : Option String
  createdAt : ℕ
  deriving DecidableEq

/-- `RequestLogQuery`. -/
structure RequestLogQuery where
  limit : Option ℕ
  offset : Option ℕ
  stage : Option String
  model : Option String
  provider : Option String
  since : Option ℕ

/-- `MaintenanceQuery`. -/
structure MaintenanceQuery where
  before : Option ℕ
  stage : Option String
  model : Option String
  provider : Option String

/-- `RequestLogListResult`. -/
structure RequestLogListResult where
  data : List RequestLogEntry
  total : ℕ

/-- `RequestLogStore`, but for its `count`. The error of a `write` is dropped by its caller. -/
class RequestLogStore (σ : Type*) where
  write : σ → RequestLogEntry → σ
  list : σ → RequestLogQuery → Except String RequestLogListResult
  delete : σ → MaintenanceQuery → σ × Except String ℕ

/-- A store behind a trait object is one of the two. -/
instance {σ τ : Type*} [RequestLogStore σ] [RequestLogStore τ] : RequestLogStore (σ ⊕ τ) where
  write
    | .inl store, entry => .inl (RequestLogStore.write store entry)
    | .inr store, entry => .inr (RequestLogStore.write store entry)
  list
    | .inl store, query => RequestLogStore.list store query
    | .inr store, query => RequestLogStore.list store query
  delete
    | .inl store, query => (RequestLogStore.delete store query).map .inl id
    | .inr store, query => (RequestLogStore.delete store query).map .inr id

/-! ### In memory -/

/-- The filter of `list`. -/
def RequestLogQuery.selects (query : RequestLogQuery) (e : RequestLogEntry) : Bool :=
  query.stage.all (· == e.stage) && query.model.all (· == e.model) &&
    query.provider.all (· == e.provider) && query.since.all (· ≤ e.createdAt)

/-- The page of the selected entries that `list` returns. -/
def RequestLogQuery.page (query : RequestLogQuery) (entries : List RequestLogEntry) :
    RequestLogListResult where
  data := ((entries.filter query.selects).drop (query.offset.getD 0)).take (query.limit.getD 100)
  total := (entries.filter query.selects).length

/-- The entries that `delete` retains: a young one whatever else is asked for, and one of which no
field that is named matches. -/
def MaintenanceQuery.retains (query : MaintenanceQuery) (e : RequestLogEntry) : Bool :=
  query.before.any (· ≤ e.createdAt) ||
    !(query.stage.any (e.stage == ·) || query.model.any (e.model == ·) ||
      query.provider.any (e.provider == ·))

/-- `InMemoryRequestLogStore`. -/
structure InMemoryRequestLogStore where
  entries : List RequestLogEntry
  maxEntries : ℕ

/-- `DEFAULT_MAX_ENTRIES`. -/
def defaultMaxEntries : ℕ := 100000

namespace InMemoryRequestLogStore

/-- `InMemoryRequestLogStore::new`. -/
def new : InMemoryRequestLogStore := ⟨[], defaultMaxEntries⟩

/-- The eviction at the end of `write`. -/
def evict (max : ℕ) (entries : List RequestLogEntry) : List RequestLogEntry :=
  entries.drop (entries.length - max)

instance : RequestLogStore InMemoryRequestLogStore where
  write store entry := { store with entries := evict store.maxEntries (store.entries ++ [entry]) }
  list store query := .ok (query.page store.entries)
  delete store query :=
    ({ store with entries := store.entries.filter query.retains },
      .ok (store.entries.length - (store.entries.filter query.retains).length))

theorem evict_of_le {max : ℕ} {entries : List RequestLogEntry} (h : entries.length ≤ max) :
    evict max entries = entries := by
  rw [evict, Nat.sub_eq_zero_of_le h, List.drop_zero]

/-- Below its capacity, a store keeps all that is written. -/
theorem write_of_lt {max : ℕ} {entries : List RequestLogEntry} (entry : RequestLogEntry)
    (h : entries.length < max) :
    RequestLogStore.write (InMemoryRequestLogStore.mk entries max) entry =
      ⟨entries ++ [entry], max⟩ := by
  show InMemoryRequestLogStore.mk (evict max (entries ++ [entry])) max = _
  rw [evict_of_le (by rwa [List.length_append])]

end InMemoryRequestLogStore

end Himadri
