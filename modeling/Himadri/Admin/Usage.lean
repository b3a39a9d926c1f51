import Mathlib.Algebra.Order.Field.Rat
import Mathlib.Tactic.FieldSimp
import Himadri.Core.Groups

/-!
# Usage

The in-memory usage store: a ring of the last records, the statistics of one API key and the
dashboard. The two views read the same ring, by key and as a whole. Requests, costs and failures
agree whatever was recorded; tokens do not, since the statistics of a key add up prompt and
completion tokens where the dashboard adds up the totals the providers reported
(`viewsAgree_iff`).
-/

namespace Himadri

/-- `UsageRecord`. -/
structure UsageRecord where
  requestId : String
  apiKeyId : Option String
  model : String
  provider : String
  promptTokens : ℕ
  completionTokens : ℕ
  totalTokens : ℕ
  costUsd : ℚ
  latencyMs : ℕ
  createdAt : ℤ
  success : Bool
  errorMessage : Option String
  deriving DecidableEq

/-- The entry `(requests, tokens, cost)` of an aggregation. -/
@[ext]
structure Tally where
  requests : ℕ
  tokens : ℕ
  costUsd : ℚ
  deriving DecidableEq

namespace Tally

instance : Zero Tally := ⟨⟨0, 0, 0⟩⟩

instance : Add Tally :=
  ⟨fun s t ↦ ⟨s.requests + t.requests, s.tokens + t.tokens, s.costUsd + t.costUsd⟩⟩

@[simp] theorem requests_zero : (0 : Tally).requests = 0 := rfl

@[simp] theorem tokens_zero : (0 : Tally).tokens = 0 := rfl

@[simp] theorem costUsd_zero : (0 : Tally).costUsd = 0 := rfl

@[simp] theorem requests_add (s t : Tally) : (s + t).requests = s.requests + t.requests := rfl

@[simp] theorem tokens_add (s t : Tally) : (s + t).tokens = s.tokens + t.tokens := rfl

@[simp] theorem costUsd_add (s t : Tally) : (s + t).costUsd = s.costUsd + t.costUsd := rfl

instance : AddCommMonoid Tally where
  add_assoc s t u := by
    ext
    · exact Nat.add_assoc ..
    · exact Nat.add_assoc ..
    · exact add_assoc s.costUsd t.costUsd u.costUsd
  zero_add s := by ext <;> simp
  add_zero s := by ext <;> simp
  add_comm s t := by
    ext
    · exact Nat.add_comm ..
    · exact Nat.add_comm ..
    · exact add_comm s.costUsd t.costUsd
  nsmul := nsmulRec

end Tally

/-! ### The store -/

/-- Pop from the front while there are more records than the cap. -/
def evict (maxRecords : ℕ) : List UsageRecord → List UsageRecord
  | [] => []
  | r :: records =>
      if maxRecords < (r :: records).length then evict maxRecords records else r :: records

theorem evict_eq_drop (maxRecords : ℕ) (records : List UsageRecord) :
    evict maxRecords records = records.drop (records.length - maxRecords) := by
  induction records with
  | nil => rw [evict, List.drop_nil]
  | cons r records ih =>
    rw [evict]
    split_ifs with h
    · have hsucc : (r :: records).length - maxRecords = records.length - maxRecords + 1 := by
        rw [List.length_cons] at h ⊢
        omega
      rw [ih, hsucc, List.drop_succ_cons]
    · rw [Nat.sub_eq_zero_of_le (Nat.le_of_not_lt h), List.drop_zero]

theorem length_evict_le (maxRecords : ℕ) (records : List UsageRecord) :
    (evict maxRecords records).length ≤ maxRecords := by
  rw [evict_eq_drop, List.length_drop]
  omega

/-- `UsageStore`: a ring of records, oldest first, that never outgrows its cap. -/
structure UsageStore where
  maxRecords : ℕ
  records : List UsageRecord
  length_le : records.length ≤ maxRecords

namespace UsageStore

/-- A store without records. -/
def empty (maxRecords : ℕ) : UsageStore := ⟨maxRecords, [], Nat.zero_le _⟩

/-- `UsageStore::new`, with the cap `DEFAULT_MAX_RECORDS`. -/
def new : UsageStore := empty 100000

/-- `UsageStore::record`. -/
def record (store : UsageStore) (r : UsageRecord) : UsageStore :=
  ⟨store.maxRecords, evict store.maxRecords (store.records ++ [r]), length_evict_le _ _⟩

/-- One record after the other. -/
def recordAll (store : UsageStore) (recorded : List UsageRecord) : UsageStore :=
  recorded.foldl record store

/-- `UsageStore::count`. -/
def count (store : UsageStore) : ℕ := store.records.length

@[simp] theorem maxRecords_recordAll (store : UsageStore) (recorded : List UsageRecord) :
    (store.recordAll recorded).maxRecords = store.maxRecords := by
  induction recorded generalizing store with
  | nil => rfl
  | cons r recorded ih => exact ih (store.record r)

/-- The ring holds the last records. -/
theorem records_recordAll (store : UsageStore) (recorded : List UsageRecord) :
    (store.recordAll recorded).records =
      (store.records ++ recorded).drop
        (store.records.length + recorded.length - store.maxRecords) := by
  induction recorded generalizing store with
  | nil =>
    rw [List.append_nil, List.length_nil, Nat.add_zero, Nat.sub_eq_zero_of_le store.length_le]
    rfl
  | cons r recorded ih =>
    have hrecord : (store.record r).records =
        (store.records ++ [r]).drop (store.records.length + 1 - store.maxRecords) := by
      show evict store.maxRecords (store.records ++ [r]) = _
      rw [evict_eq_drop, List.length_append, List.length_singleton]
    have hle := store.length_le
    have hdropped :
        store.records.length + 1 - store.maxRecords ≤ (store.records ++ [r]).length := by
      rw [List.length_append, List.length_singleton]
      omega
    calc (store.recordAll (r :: recorded)).records
        = ((store.record r).records ++ recorded).drop
            ((store.record r).records.length + recorded.length - store.maxRecords) :=
          ih (store.record r)
      _ = ((store.records ++ [r] ++ recorded).drop
              (store.records.length + 1 - store.maxRecords)).drop
            ((store.record r).records.length + recorded.length - store.maxRecords) := by
          rw [List.drop_append_of_le_length hdropped, ← hrecord]
      _ = (store.records ++ r :: recorded).drop
            (store.records.length + (r :: recorded).length - store.maxRecords) := by
          rw [List.drop_drop, List.append_assoc, List.singleton_append]
          congr 1
          rw [hrecord, List.length_drop, List.length_append, List.length_singleton,
            List.length_cons]
          omega

theorem count_recordAll (store : UsageStore) (recorded : List UsageRecord) :
    (store.recordAll recorded).count =
      min store.maxRecords (store.records.length + recorded.length) := by
  rw [count, records_recordAll, List.length_drop, List.length_append]
  omega

end UsageStore

/-! ### The statistics of a key -/

/-- A latency added to a sum of latencies, a `u64` that wraps around. -/
def addLatency (total latencyMs : ℕ) : ℕ := (total + latencyMs) % UInt64.size

/-- The mean latency, zero where there was no request. -/
def avgLatency (totalLatency totalRequests : ℕ) : ℚ :=
  if 0 < totalRequests then (totalLatency : ℚ) / totalRequests else 0

/-- The accumulators of `get_key_stats`. The models used are a set. -/
structure KeyTotals where
  totalRequests : ℕ := 0
  successful : ℕ := 0
  failed : ℕ := 0
  totalPrompt : ℕ := 0
  totalCompletion : ℕ := 0
  totalCost : ℚ := 0
  totalLatency : ℕ := 0
  lastRequest : Option ℤ := none
  modelsUsed : List String := []
  deriving DecidableEq

/-- The body of the loop of `get_key_stats`. -/
def KeyTotals.add (totals : KeyTotals) (r : UsageRecord) : KeyTotals where
  totalRequests := totals.totalRequests + 1
  successful := if r.success then totals.successful + 1 else totals.successful
  failed := if r.success then totals.failed else totals.failed + 1
  totalPrompt := totals.totalPrompt + r.promptTokens
  totalCompletion := totals.totalCompletion + r.completionTokens
  totalCost := totals.totalCost + r.costUsd
  totalLatency := addLatency totals.totalLatency r.latencyMs
  lastRequest :=
    match totals.lastRequest with
    | none => some r.createdAt
    | some t => if t < r.createdAt then some r.createdAt else some t
  modelsUsed := totals.modelsUsed.insert r.model

/-- `UsageStats`. -/
structure UsageStats where
  apiKeyId : String
  totalRequests : ℕ
  successfulRequests : ℕ
  failedRequests : ℕ
  totalPromptTokens : ℕ
  totalCompletionTokens : ℕ
  totalTokens : ℕ
  totalCostUsd : ℚ
  avgLatencyMs : ℚ
  lastRequestAt : Option ℤ
  modelsUsed : List String
  deriving DecidableEq

def UsageStats.tally (stats : UsageStats) : Tally :=
  ⟨stats.totalRequests, stats.totalTokens, stats.totalCostUsd⟩

/-- The accumulators of `get_key_stats` after the loop. The sums of tokens do not overflow: they
are sums of `u32`s, at most as many as the ring holds. -/
def UsageStore.keyTotals (store : UsageStore) (apiKeyId : String) : KeyTotals :=
  store.records.foldl
    (fun totals r ↦ if r.apiKeyId = some apiKeyId then totals.add r else totals) {}

/-- `UsageStore::get_key_stats`. -/
def UsageStore.getKeyStats (store : UsageStore) (apiKeyId : String) : UsageStats :=
  let totals := store.keyTotals apiKeyId
  { apiKeyId
    totalRequests := totals.totalRequests
    successfulRequests := totals.successful
    failedRequests := totals.failed
    totalPromptTokens := totals.totalPrompt
    totalCompletionTokens := totals.totalCompletion
    totalTokens := totals.totalPrompt + totals.totalCompletion
    totalCostUsd := totals.totalCost
    avgLatencyMs := avgLatency totals.totalLatency totals.totalRequests
    lastRequestAt := totals.lastRequest
    modelsUsed := totals.modelsUsed }

/-! ### The dashboard -/

/-- `ModelUsage`. -/
structure ModelUsage where
  model : String
  requests : ℕ
  tokens : ℕ
  costUsd : ℚ
  deriving DecidableEq

def modelRow (model : String) (tally : Tally) : ModelUsage :=
  ⟨model, tally.requests, tally.tokens, tally.costUsd⟩

def ModelUsage.tally (row : ModelUsage) : Tally := ⟨row.requests, row.tokens, row.costUsd⟩

/-- `ProviderUsage`. -/
structure ProviderUsage where
  provider : String
  requests : ℕ
  tokens : ℕ
  costUsd : ℚ
  deriving DecidableEq

def providerRow (provider : String) (tally : Tally) : ProviderUsage :=
  ⟨provider, tally.requests, tally.tokens, tally.costUsd⟩

def ProviderUsage.tally (row : ProviderUsage) : Tally := ⟨row.requests, row.tokens, row.costUsd⟩

/-- `DashboardSummary`. -/
structure DashboardSummary where
  totalKeys : ℕ
  totalRequests : ℕ
  totalTokens : ℕ
  totalCostUsd : ℚ
  avgLatencyMs : ℚ
  errorRate : ℚ
  topModels : List ModelUsage
  topProviders : List ProviderUsage
  recentErrors : List UsageRecord
  deriving DecidableEq

def DashboardSummary.tally (summary : DashboardSummary) : Tally :=
  ⟨summary.totalRequests, summary.totalTokens, summary.totalCostUsd⟩

/-- The order a hash map yields its entries in. -/
structure HashOrder where
  iterate : List (String × Tally) → List (String × Tally)
  perm : ∀ entries, (iterate entries).Perm entries

/-- `top_n`. -/
def topN {T : Type} (order : HashOrder) (stats : List (String × Tally)) (n : ℕ)
    (make : String → Tally → T) : List T :=
  (((order.iterate stats).mergeSort fun e e' ↦ decide (e'.2.requests ≤ e.2.requests)).take n).map
    fun e ↦ make e.1 e.2

/-- What a record adds to an aggregation, by one of its token counts. -/
def UsageRecord.tallyBy (tokens : UsageRecord → ℕ) (r : UsageRecord) : Tally :=
  ⟨1, tokens r, r.costUsd⟩

/-- The accumulators of `get_dashboard`. -/
structure DashboardTotals where
  totalRequests : ℕ := 0
  totalTokens : ℕ := 0
  totalCost : ℚ := 0
  totalLatency : ℕ := 0
  errors : ℕ := 0
  modelStats : List (String × Tally) := []
  providerStats : List (String × Tally) := []
  deriving DecidableEq

/-- The body of the loop of `get_dashboard`. -/
def DashboardTotals.add (totals : DashboardTotals) (r : UsageRecord) : DashboardTotals where
  totalRequests := totals.totalRequests + 1
  totalTokens := totals.totalTokens + r.totalTokens
  totalCost := totals.totalCost + r.costUsd
  totalLatency := addLatency totals.totalLatency r.latencyMs
  errors := if r.success then totals.errors else totals.errors + 1
  modelStats :=
    Groups.upsert r.model (· + r.tallyBy UsageRecord.totalTokens) 0 totals.modelStats
  providerStats :=
    Groups.upsert r.provider (· + r.tallyBy UsageRecord.totalTokens) 0 totals.providerStats

def UsageStore.dashboardTotals (store : UsageStore) : DashboardTotals :=
  store.records.foldl DashboardTotals.add {}

/-- `UsageStore::get_dashboard`, with the orders of its two hash maps. -/
def UsageStore.getDashboard (store : UsageStore) (modelOrder providerOrder : HashOrder)
    (keyCount : ℕ) : DashboardSummary :=
  let totals := store.dashboardTotals
  { totalKeys := keyCount
    totalRequests := totals.totalRequests
    totalTokens := totals.totalTokens
    totalCostUsd := totals.totalCost
    avgLatencyMs := avgLatency totals.totalLatency totals.totalRequests
    errorRate :=
      if 0 < totals.totalRequests then (totals.errors : ℚ) / totals.totalRequests else 0
    topModels := topN modelOrder totals.modelStats 10 modelRow
    topProviders := topN providerOrder totals.providerStats 10 providerRow
    recentErrors := (store.records.reverse.filter fun r ↦ !r.success).take 10 }

/-! ### The two views -/

/-- The records of no key. -/
def UsageStore.keyless (store : UsageStore) : List UsageRecord :=
  store.records.filter fun r ↦ r.apiKeyId.isNone

/-- The records of some key. -/
def UsageStore.keyed (store : UsageStore) : List UsageRecord :=
  store.records.filter fun r ↦ r.apiKeyId.isSome

/-- One for a failed request. -/
def UsageRecord.failure (r : UsageRecord) : ℚ := if r.success then 0 else 1

/-- A token count over some records. -/
def tokensOf (tokens : UsageRecord → ℕ) (records : List UsageRecord) : ℕ :=
  (records.map tokens).foldr (· + ·) 0

def UsageRecord.promptAndCompletion (r : UsageRecord) : ℕ := r.promptTokens + r.completionTokens

/-- The statistics of the keys and the records of no key make up the dashboard, and so do its rows
where no row is cut off. -/
structure UsageStore.ViewsAgree (store : UsageStore) (keys : List String)
    (summary : DashboardSummary) : Prop where
  totals :
    (keys.map fun k ↦ (store.getKeyStats k).tally).sum +
      (store.keyless.map (UsageRecord.tallyBy UsageRecord.totalTokens)).sum = summary.tally
  errors :
    (keys.map fun k ↦ ((store.getKeyStats k).failedRequests : ℚ)).sum +
      (store.keyless.map UsageRecord.failure).sum = summary.errorRate * summary.totalRequests
  models : (store.records.map UsageRecord.model).dedup.length ≤ 10 →
    (summary.topModels.map ModelUsage.tally).sum = summary.tally
  providers : (store.records.map UsageRecord.provider).dedup.length ≤ 10 →
    (summary.topProviders.map ProviderUsage.tally).sum = summary.tally

section Tallies

theorem sum_tallyBy_tokens (tokens : UsageRecord → ℕ) (records : List UsageRecord) :
    (records.map (UsageRecord.tallyBy tokens)).sum.tokens = tokensOf tokens records := by
  induction records with
  | nil => rfl
  | cons r records ih =>
    rw [List.map_cons, List.sum_cons, Tally.tokens_add, ih]
    rfl

/-- Two token counts tally the same records alike where they come to the same. -/
theorem sum_tallyBy_eq_iff {tokens tokens' : UsageRecord → ℕ} (records : List UsageRecord) :
    (records.map (UsageRecord.tallyBy tokens)).sum =
        (records.map (UsageRecord.tallyBy tokens')).sum ↔
      tokensOf tokens records = tokensOf tokens' records := by
  have hrest : (records.map (UsageRecord.tallyBy tokens)).sum.requests =
        (records.map (UsageRecord.tallyBy tokens')).sum.requests ∧
      (records.map (UsageRecord.tallyBy tokens)).sum.costUsd =
        (records.map (UsageRecord.tallyBy tokens')).sum.costUsd := by
    induction records with
    | nil => exact ⟨rfl, rfl⟩
    | cons r records ih =>
      simp only [List.map_cons, List.sum_cons, Tally.requests_add, Tally.costUsd_add]
      rw [ih.1, ih.2]
      exact ⟨rfl, rfl⟩
  rw [← sum_tallyBy_tokens, ← sum_tallyBy_tokens]
  exact ⟨fun h ↦ congrArg Tally.tokens h, fun h ↦ Tally.ext hrest.1 h hrest.2⟩

/-- The records of one key, as its statistics read them. -/
theorem foldl_keyTotals (k : String) (records : List UsageRecord) (totals : KeyTotals) :
    records.foldl (fun totals r ↦ if r.apiKeyId = some k then totals.add r else totals) totals =
      (records.filter fun r ↦ decide (r.apiKeyId = some k)).foldl KeyTotals.add totals := by
  induction records generalizing totals with
  | nil => rfl
  | cons r records ih =>
    rw [List.foldl_cons, List.filter_cons]
    by_cases h : r.apiKeyId = some k
    · rw [if_pos h, if_pos (decide_eq_true h), ih, List.foldl_cons]
    · rw [if_neg h, if_neg (by simpa using h), ih]

def KeyTotals.tally (totals : KeyTotals) : Tally :=
  ⟨totals.totalRequests, totals.totalPrompt + totals.totalCompletion, totals.totalCost⟩

theorem KeyTotals.tally_add (totals : KeyTotals) (r : UsageRecord) :
    (totals.add r).tally = totals.tally + r.tallyBy UsageRecord.promptAndCompletion := by
  refine Tally.ext rfl ?_ rfl
  show totals.totalPrompt + r.promptTokens + (totals.totalCompletion + r.completionTokens) =
    totals.totalPrompt + totals.totalCompletion + (r.promptTokens + r.completionTokens)
  omega

theorem KeyTotals.failed_add (totals : KeyTotals) (r : UsageRecord) :
    ((totals.add r).failed : ℚ) = totals.failed + r.failure := by
  rw [KeyTotals.add, UsageRecord.failure]
  split_ifs
  · rw [add_zero]
  · rw [Nat.cast_add, Nat.cast_one]

theorem tally_foldl_keyTotals (records : List UsageRecord) (totals : KeyTotals) :
    (records.foldl KeyTotals.add totals).tally =
      totals.tally + (records.map (UsageRecord.tallyBy UsageRecord.promptAndCompletion)).sum := by
  induction records generalizing totals with
  | nil => exact (add_zero totals.tally).symm
  | cons r records ih =>
    rw [List.foldl_cons, ih, KeyTotals.tally_add, List.map_cons, List.sum_cons, add_assoc]

theorem failed_foldl_keyTotals (records : List UsageRecord) (totals : KeyTotals) :
    ((records.foldl KeyTotals.add totals).failed : ℚ) =
      totals.failed + (records.map UsageRecord.failure).sum := by
  induction records generalizing totals with
  | nil => exact (add_zero (totals.failed : ℚ)).symm
  | cons r records ih =>
    rw [List.foldl_cons, ih, KeyTotals.failed_add, List.map_cons, List.sum_cons, add_assoc]

theorem UsageStore.tally_getKeyStats (store : UsageStore) (k : String) :
    (store.getKeyStats k).tally = ((store.records.filter fun r ↦ decide (r.apiKeyId = some k)).map
      (UsageRecord.tallyBy UsageRecord.promptAndCompletion)).sum := by
  show (store.keyTotals k).tally = _
  rw [UsageStore.keyTotals, foldl_keyTotals, tally_foldl_keyTotals]
  exact zero_add _

theorem UsageStore.failed_getKeyStats (store : UsageStore) (k : String) :
    ((store.getKeyStats k).failedRequests : ℚ) =
      ((store.records.filter fun r ↦ decide (r.apiKeyId = some k)).map
        UsageRecord.failure).sum := by
  show ((store.keyTotals k).failed : ℚ) = _
  rw [UsageStore.keyTotals, foldl_keyTotals, failed_foldl_keyTotals]
  show ((0 : ℕ) : ℚ) + _ = _
  rw [Nat.cast_zero, zero_add]

def DashboardTotals.tally (totals : DashboardTotals) : Tally :=
  ⟨totals.totalRequests, totals.totalTokens, totals.totalCost⟩

/-- What the loop of the dashboard has accumulated after some records. -/
structure DashboardTotals.Accumulates (totals : DashboardTotals) (records : List UsageRecord) :
    Prop where
  tally : totals.tally = (records.map (UsageRecord.tallyBy UsageRecord.totalTokens)).sum
  requests : totals.totalRequests = records.length
  errors : (totals.errors : ℚ) = (records.map UsageRecord.failure).sum
  models : totals.modelStats = Groups.aggregate UsageRecord.model
    (UsageRecord.tallyBy UsageRecord.totalTokens) records
  providers : totals.providerStats = Groups.aggregate UsageRecord.provider
    (UsageRecord.tallyBy UsageRecord.totalTokens) records

theorem DashboardTotals.Accumulates.add {totals : DashboardTotals} {records : List UsageRecord}
    (h : totals.Accumulates records) (r : UsageRecord) :
    (totals.add r).Accumulates (records ++ [r]) where
  tally := by
    rw [List.map_append, List.sum_append, ← h.tally, List.map_singleton, List.sum_singleton]
    rfl
  requests := by
    rw [List.length_append, List.length_singleton, ← h.requests]
    rfl
  errors := by
    rw [List.map_append, List.sum_append, ← h.errors, List.map_singleton, List.sum_singleton,
      DashboardTotals.add, UsageRecord.failure]
    split_ifs
    · rw [add_zero]
    · rw [Nat.cast_add, Nat.cast_one]
  models := by rw [Groups.aggregate_concat, ← h.models]; rfl
  providers := by rw [Groups.aggregate_concat, ← h.providers]; rfl

theorem UsageStore.accumulates_dashboardTotals (store : UsageStore) :
    store.dashboardTotals.Accumulates store.records := by
  rw [UsageStore.dashboardTotals]
  induction store.records using List.reverseRecOn with
  | nil => exact ⟨rfl, rfl, Nat.cast_zero, rfl, rfl⟩
  | append_singleton records r ih =>
    rw [List.foldl_append]
    exact ih.add r

/-- The rows of a breakdown without a cut sum to the entries of the aggregation. -/
theorem sum_topN {T : Type} (order : HashOrder) {stats : List (String × Tally)} {n : ℕ}
    {make : String → Tally → T} {tally : T → Tally} (hmake : ∀ key t, tally (make key t) = t)
    (hn : stats.length ≤ n) :
    ((topN order stats n make).map tally).sum = (stats.map Prod.snd).sum := by
  have hperm := (List.mergeSort_perm (order.iterate stats) fun e e' ↦
    decide (e'.2.requests ≤ e.2.requests)).trans (order.perm stats)
  rw [topN, List.take_of_length_le (hperm.length_eq.trans_le hn), List.map_map]
  have hmap : tally ∘ (fun e : String × Tally ↦ make e.1 e.2) = Prod.snd :=
    funext fun e ↦ hmake e.1 e.2
  rw [hmap]
  exact (hperm.map Prod.snd).sum_eq

end Tallies

section Agreement

/-- The distinct key ids of some records. -/
def keyIds (records : List UsageRecord) : List String :=
  (records.filterMap UsageRecord.apiKeyId).dedup

theorem mem_keyIds {records : List UsageRecord} {k : String} :
    k ∈ keyIds records ↔ ∃ r ∈ records, r.apiKeyId = some k := by
  rw [keyIds, List.mem_dedup, List.mem_filterMap]

variable {M : Type} [AddCommMonoid M] {store : UsageStore} {recorded : List UsageRecord}

/-- The ring holds nothing that was not recorded. -/
theorem UsageStore.mem_recorded {maxRecords : ℕ} {r : UsageRecord}
    (hr : r ∈ ((UsageStore.empty maxRecords).recordAll recorded).records) : r ∈ recorded := by
  rw [UsageStore.records_recordAll] at hr
  have hmem := List.mem_of_mem_drop hr
  rwa [UsageStore.empty, List.nil_append] at hmem

theorem sum_keyIds (f : UsageRecord → M) (hmem : ∀ r ∈ store.records, r ∈ recorded) :
    ((keyIds recorded).map fun k ↦
        ((store.records.filter fun r ↦ decide (r.apiKeyId = some k)).map f).sum).sum =
      (store.keyed.map f).sum := by
  have hnodup : (keyIds recorded).Nodup := List.nodup_dedup _
  rw [Groups.sum_keys UsageRecord.apiKeyId f store.records hnodup]
  congr 2
  rw [UsageStore.keyed]
  refine List.filter_congr fun r hr ↦ ?_
  rw [Bool.eq_iff_iff, decide_eq_true_iff, Option.isSome_iff_exists]
  constructor
  · rintro ⟨k, -, heq⟩
    exact ⟨k, heq⟩
  · rintro ⟨k, heq⟩
    exact ⟨k, mem_keyIds.2 ⟨r, hmem r hr, heq⟩, heq⟩

theorem sum_keyed_add_keyless (f : UsageRecord → M) :
    (store.keyed.map f).sum + (store.keyless.map f).sum = (store.records.map f).sum := by
  rw [UsageStore.keyed, UsageStore.keyless, Groups.sum_filter_or]
  · rw [List.filter_eq_self.2]
    intro r _
    rw [← Option.not_isSome, Bool.or_not_self]
  · intro r hr
    rw [← Option.not_isSome, hr]
    rfl

variable {modelOrder providerOrder : HashOrder} {keyCount : ℕ}

theorem UsageStore.tally_getDashboard :
    (store.getDashboard modelOrder providerOrder keyCount).tally =
      (store.records.map (UsageRecord.tallyBy UsageRecord.totalTokens)).sum :=
  store.accumulates_dashboardTotals.tally

/-- The error rate is that of the failures among the records. -/
theorem UsageStore.errorRate_getDashboard :
    (store.getDashboard modelOrder providerOrder keyCount).errorRate *
        (store.getDashboard modelOrder providerOrder keyCount).totalRequests =
      (store.records.map UsageRecord.failure).sum := by
  have haccumulates := store.accumulates_dashboardTotals
  show (if 0 < store.dashboardTotals.totalRequests then
    (store.dashboardTotals.errors : ℚ) / store.dashboardTotals.totalRequests else 0) *
      (store.dashboardTotals.totalRequests : ℚ) = _
  rw [← haccumulates.errors]
  split_ifs with hpos
  · have hne : (store.dashboardTotals.totalRequests : ℚ) ≠ 0 :=
      Nat.cast_ne_zero.2 (Nat.pos_iff_ne_zero.1 hpos)
    exact div_mul_cancel₀ _ hne
  · have hnone : store.records = [] := by
      rw [← List.length_eq_zero_iff, ← haccumulates.requests]
      omega
    rw [haccumulates.errors, hnone, zero_mul]
    rfl

theorem UsageStore.sum_topModels
    (hmodels : (store.records.map UsageRecord.model).dedup.length ≤ 10) :
    ((store.getDashboard modelOrder providerOrder keyCount).topModels.map ModelUsage.tally).sum =
      (store.getDashboard modelOrder providerOrder keyCount).tally := by
  have hstats := store.accumulates_dashboardTotals.models
  rw [UsageStore.tally_getDashboard, ← Groups.sum_aggregate UsageRecord.model, ← hstats]
  have hrow : ∀ model tally, (modelRow model tally).tally = tally := fun _ _ ↦ rfl
  refine sum_topN modelOrder hrow ?_
  rwa [hstats, Groups.length_aggregate]

theorem UsageStore.sum_topProviders
    (hproviders : (store.records.map UsageRecord.provider).dedup.length ≤ 10) :
    ((store.getDashboard modelOrder providerOrder keyCount).topProviders.map
        ProviderUsage.tally).sum =
      (store.getDashboard modelOrder providerOrder keyCount).tally := by
  have hstats := store.accumulates_dashboardTotals.providers
  rw [UsageStore.tally_getDashboard, ← Groups.sum_aggregate UsageRecord.provider, ← hstats]
  have hrow : ∀ provider tally, (providerRow provider tally).tally = tally := fun _ _ ↦ rfl
  refine sum_topN providerOrder hrow ?_
  rwa [hstats, Groups.length_aggregate]

/-- Over the keys, the statistics tally the records of some key by prompt and completion tokens. -/
theorem UsageStore.sum_tally_getKeyStats (hmem : ∀ r ∈ store.records, r ∈ recorded) :
    ((keyIds recorded).map fun k ↦ (store.getKeyStats k).tally).sum =
      (store.keyed.map (UsageRecord.tallyBy UsageRecord.promptAndCompletion)).sum := by
  simp only [UsageStore.tally_getKeyStats]
  exact sum_keyIds _ hmem

theorem UsageStore.sum_failed_getKeyStats (hmem : ∀ r ∈ store.records, r ∈ recorded) :
    ((keyIds recorded).map fun k ↦ ((store.getKeyStats k).failedRequests : ℚ)).sum =
      (store.keyed.map UsageRecord.failure).sum := by
  simp only [UsageStore.failed_getKeyStats]
  exact sum_keyIds _ hmem

/-- Whatever was recorded, in a ring of whatever size, the two views agree if and only if, over the
records of some key that are left in the ring, the reported totals come to the same as the prompt
and the completion tokens. -/
theorem viewsAgree_iff (maxRecords : ℕ) (recorded : List UsageRecord)
    (modelOrder providerOrder : HashOrder) (keyCount : ℕ) :
    ((UsageStore.empty maxRecords).recordAll recorded).ViewsAgree (keyIds recorded)
        (((UsageStore.empty maxRecords).recordAll recorded).getDashboard modelOrder providerOrder
          keyCount) ↔
      tokensOf UsageRecord.promptAndCompletion
          ((UsageStore.empty maxRecords).recordAll recorded).keyed =
        tokensOf UsageRecord.totalTokens
          ((UsageStore.empty maxRecords).recordAll recorded).keyed := by
  have hmem : ∀ r ∈ ((UsageStore.empty maxRecords).recordAll recorded).records, r ∈ recorded :=
    fun _ ↦ UsageStore.mem_recorded
  generalize (UsageStore.empty maxRecords).recordAll recorded = store at hmem ⊢
  constructor
  · intro h
    have htotals := h.totals
    rw [UsageStore.sum_tally_getKeyStats hmem, UsageStore.tally_getDashboard,
      ← sum_keyed_add_keyless] at htotals
    have htokens := congrArg Tally.tokens htotals
    rw [Tally.tokens_add, Tally.tokens_add] at htokens
    have hkeyed := Nat.add_right_cancel htokens
    rwa [sum_tallyBy_tokens, sum_tallyBy_tokens] at hkeyed
  · intro h
    refine ⟨?_, ?_, UsageStore.sum_topModels, UsageStore.sum_topProviders⟩
    · rw [UsageStore.sum_tally_getKeyStats hmem, UsageStore.tally_getDashboard,
        (sum_tallyBy_eq_iff store.keyed).2 h, sum_keyed_add_keyless]
    · rw [UsageStore.sum_failed_getKeyStats hmem, UsageStore.errorRate_getDashboard,
        sum_keyed_add_keyless]

/-- A record of a key whose provider reports a total of its own. -/
def reasoningRecord : UsageRecord :=
  ⟨"req-1", some "key-1", "gpt-4o", "openai", 10, 5, 20, 0, 50, 0, true, none⟩

theorem not_viewsAgree_reasoningRecord :
    ¬(UsageStore.new.recordAll [reasoningRecord]).ViewsAgree (keyIds [reasoningRecord])
      ((UsageStore.new.recordAll [reasoningRecord]).getDashboard ⟨id, fun _ ↦ .refl _⟩
        ⟨id, fun _ ↦ .refl _⟩ 1) := by
  intro h
  have htokens := congrArg Tally.tokens h.totals
  revert htokens
  decide +kernel

end Agreement

end Himadri
