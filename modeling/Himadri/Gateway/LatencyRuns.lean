import Mathlib.Algebra.Order.Floor.Semifield
import Mathlib.Data.Rat.Floor
import Himadri.Gateway.FailoverLoop
import Himadri.Gateway.FailoverOrder
import Himadri.Transition.System

/-!
# What the least-latency order ranks by

Runs of calls under `leastlatency`: the failover loops of any number of calls record what their
operations took, and selections read the store, in any order. The store is keyed by the provider and
told of every operation that ran; an endpoint's own measure is the mean over its own completions
(`ownMean`). The two agree as long as no operation fails, each provider has one endpoint at most and
no sum leaves the 64 bits (`KeptApart`); the order is by whole milliseconds, so the means have to
differ by more than a fraction of one.

A selection reads the store at one moment.
-/

namespace Himadri

/-- An operation that ran against a target, as the loop times it. -/
structure Attempt where
  target : Target
  ok : Bool
  latencyMs : ℕ
  deriving DecidableEq

/-- `InMemoryLatencyStore::record`. -/
def LatencyStore.record (store : LatencyStore) (provider : String) (latencyMs : ℕ) :
    LatencyStore :=
  let entry := (store.stats.get provider).getD ⟨0, 0⟩
  ⟨store.stats.insert provider
    ⟨(entry.sum + latencyMs) % UInt64.size, (entry.count + 1) % UInt64.size⟩⟩

/-! ### Own means -/

/-- The sum of a list. -/
def totalMs (l : List ℕ) : ℕ := l.foldr (· + ·) 0

/-- The mean of a list, where there is one. -/
def meanMs (l : List ℕ) : Option ℚ :=
  if l.isEmpty then none else some ((totalMs l : ℚ) / (l.length : ℚ))

/-- What the operations against the targets of one provider took. -/
def providerLatencies (attempts : List Attempt) (provider : String) : List ℕ :=
  (attempts.filter fun a ↦ decide (a.target.provider = provider)).map (·.latencyMs)

/-- What the successful operations against an endpoint took. -/
def ownLatencies (attempts : List Attempt) (t : Target) : List ℕ :=
  (attempts.filter fun a ↦ a.ok && decide (a.target.endpoint = t.endpoint)).map (·.latencyMs)

/-- The mean over the endpoint's own completions. -/
def ownMean (attempts : List Attempt) (t : Target) : Option ℚ := meanMs (ownLatencies attempts t)

/-- The first endpoint has the lower mean. -/
def Faster (attempts : List Attempt) (a b : Target) : Prop :=
  ∃ x ∈ ownMean attempts a, ∃ y ∈ ownMean attempts b, x < y

/-- It has the lower mean in whole milliseconds. -/
def FasterByMillis (attempts : List Attempt) (a b : Target) : Prop :=
  ∃ x ∈ ownMean attempts a, ∃ y ∈ ownMean attempts b, ⌊x⌋₊ < ⌊y⌋₊

instance (attempts : List Attempt) (a b : Target) : Decidable (Faster attempts a b) :=
  inferInstanceAs (Decidable (∃ x ∈ ownMean attempts a, ∃ y ∈ ownMean attempts b, x < y))

instance (attempts : List Attempt) (a b : Target) : Decidable (FasterByMillis attempts a b) :=
  inferInstanceAs (Decidable (∃ x ∈ ownMean attempts a, ∃ y ∈ ownMean attempts b, ⌊x⌋₊ < ⌊y⌋₊))

/-- The faster of two endpoints is tried before the other. -/
def RankedByOwn (attempts : List Attempt) (ordered : List Target) : Prop :=
  ∀ a ∈ ordered, ∀ b ∈ ordered, Faster attempts a b → [a, b].Sublist ordered

section Means

variable {l : List ℕ} {x : ℚ}

theorem meanMs_eq_some :
    meanMs l = some x ↔ l ≠ [] ∧ (totalMs l : ℚ) / (l.length : ℚ) = x := by
  rw [meanMs]
  rcases l with - | ⟨ms, l⟩
  · simp
  · simp

/-- The whole milliseconds of a mean are the integer quotient. -/
theorem floor_of_meanMs (h : meanMs l = some x) : ⌊x⌋₊ = totalMs l / l.length := by
  obtain ⟨-, rfl⟩ := meanMs_eq_some.1 h
  exact Nat.floor_div_eq_div (totalMs l) l.length

theorem totalMs_append_singleton (l : List ℕ) (ms : ℕ) : totalMs (l ++ [ms]) = totalMs l + ms := by
  induction l with
  | nil => exact Nat.add_comm ms 0
  | cons n l ih =>
    show n + totalMs (l ++ [ms]) = n + totalMs l + ms
    rw [ih, Nat.add_assoc]

theorem providerLatencies_append (attempts : List Attempt) (a : Attempt) (p : String) :
    providerLatencies (attempts ++ [a]) p =
      providerLatencies attempts p ++ if a.target.provider = p then [a.latencyMs] else [] := by
  rw [providerLatencies, List.filter_append, List.map_append, ← providerLatencies]
  split_ifs with h <;> simp [h]

end Means

/-! ### Runs -/

/-- A selection: what was recorded before it, and its order. -/
structure RankedChoice where
  attempts : List Attempt
  ordered : List Target
  deriving DecidableEq

/-- The latency store with what happened to it, the oldest first. -/
structure LatencyRun where
  store : LatencyStore
  attempts : List Attempt
  choices : List RankedChoice

/-- One step of a call. -/
inductive LatencyOp
  | attempt (a : Attempt)
  | select (env : SelectionEnv) (request : ChatCompletionRequest) (targets : List Target)

namespace LatencyRun

/-- Before the first call. -/
def new : LatencyRun := ⟨.new, [], []⟩

/-- An operation is recorded under the provider of its target; a selection orders by the store. -/
def step (s : LatencyRun) : LatencyOp → LatencyRun
  | .attempt a =>
    { s with
      store := s.store.record a.target.provider a.latencyMs
      attempts := s.attempts ++ [a] }
  | .select env request targets =>
    match (Strategy.leastLatency s.store).selectOrdered env request targets with
    | .ok ordered => { s with choices := s.choices ++ [⟨s.attempts, ordered⟩] }
    | .error _ => s

/-- The runs of the store. -/
def runs : TransitionSystem LatencyRun LatencyOp :=
  .ofPartial (· = new) fun s op ↦ some (s.step op)

/-- The steps a list of operations takes. -/
theorem leads_foldl (ops : List LatencyOp) (s : LatencyRun) : runs.Leads s (ops.foldl step s) := by
  induction ops generalizing s with
  | nil => exact .refl
  | cons op ops ih => exact .head ⟨op, rfl⟩ (ih (s.step op))

/-- The operation succeeded, its provider has no other endpoint that ran one, and the sum and the
count fit their words. -/
structure Separate (s : LatencyRun) (a : Attempt) : Prop where
  ok : a.ok = true
  alone : ∀ b ∈ s.attempts,
    b.target.provider = a.target.provider → b.target.endpoint = a.target.endpoint
  sum : totalMs (providerLatencies s.attempts a.target.provider) + a.latencyMs < UInt64.size
  count : (providerLatencies s.attempts a.target.provider).length + 1 < UInt64.size

/-- The step keeps the endpoints apart: what is recorded is, and where a selection compares two
means they differ in whole milliseconds or not at all. -/
def KeptApart (s : LatencyRun) : LatencyOp → Prop
  | .attempt a => s.Separate a
  | .select _ _ targets => ∀ a ∈ targets, ∀ b ∈ targets,
      Faster s.attempts a b → FasterByMillis s.attempts a b

/-- The entry of a provider whose operations took so long. -/
def entryOf (l : List ℕ) : Option LatencyEntry :=
  if l.isEmpty then none else some ⟨totalMs l, l.length⟩

/-- What holds in a run whose steps keep the endpoints apart. -/
structure Tracked (s : LatencyRun) : Prop where
  ok : ∀ a ∈ s.attempts, a.ok = true
  apart : ∀ a ∈ s.attempts, ∀ b ∈ s.attempts,
    a.target.provider = b.target.provider → a.target.endpoint = b.target.endpoint
  store : ∀ p, s.store.stats.get p = entryOf (providerLatencies s.attempts p)
  ranked : ∀ choice ∈ s.choices, RankedByOwn choice.attempts choice.ordered

/-- One more step that keeps the endpoints apart. -/
theorem reachable_step {s : LatencyRun} (h : (runs.guard KeptApart).Reachable s) (op : LatencyOp)
    (hok : s.KeptApart op) : (runs.guard KeptApart).Reachable (s.step op) :=
  h.step ⟨rfl, hok⟩

theorem provider_of_endpoint {t u : Target} (h : t.endpoint = u.endpoint) :
    t.provider = u.provider := congrArg (·.2.1) h

section Tracked

variable {s : LatencyRun}

theorem tracked_new : Tracked new where
  ok _ ha := absurd ha List.not_mem_nil
  apart _ ha := absurd ha List.not_mem_nil
  store _ := rfl
  ranked _ h := absurd h List.not_mem_nil

/-- An endpoint that has a mean is the only one of its provider. -/
theorem Tracked.ownLatencies_eq (h : s.Tracked) {t : Target}
    (hown : ownLatencies s.attempts t ≠ []) :
    ownLatencies s.attempts t = providerLatencies s.attempts t.provider := by
  obtain ⟨ms, hms⟩ := List.exists_mem_of_ne_nil _ hown
  obtain ⟨a, ha, -⟩ := List.mem_map.1 hms
  obtain ⟨ha, hkept⟩ := List.mem_filter.1 ha
  have hat : a.target.endpoint = t.endpoint :=
    of_decide_eq_true (Bool.and_eq_true_iff.1 hkept).2
  refine congrArg (List.map _) (List.filter_congr fun b hb ↦ ?_)
  rw [h.ok b hb, Bool.true_and, decide_eq_decide]
  refine ⟨provider_of_endpoint, fun hprovider ↦ ?_⟩
  rw [← hat]
  exact h.apart b hb a ha (hprovider.trans (provider_of_endpoint hat).symm)

/-- The store answers with the endpoint's own mean, in whole milliseconds. -/
theorem Tracked.getAvgLatency (h : s.Tracked) {t : Target} {x : ℚ}
    (hx : ownMean s.attempts t = some x) : s.store.getAvgLatency t.provider = ⌊x⌋₊ := by
  have hne := (meanMs_eq_some.1 hx).1
  have hown := h.ownLatencies_eq hne
  have hentry : s.store.stats.get t.provider =
      some ⟨totalMs (ownLatencies s.attempts t), (ownLatencies s.attempts t).length⟩ := by
    rw [h.store, ← hown, entryOf, if_neg (by rwa [List.isEmpty_iff])]
  have hcount : (ownLatencies s.attempts t).length ≠ 0 := mt List.length_eq_zero_iff.1 hne
  rw [floor_of_meanMs hx, LatencyStore.getAvgLatency, hentry]
  exact if_neg hcount

/-- A selection that compares whole milliseconds ranks by the own means. -/
theorem Tracked.rankedByOwn (h : s.Tracked) {env : SelectionEnv} {request : ChatCompletionRequest}
    {targets ordered : List Target}
    (hmillis : ∀ a ∈ targets, ∀ b ∈ targets, Faster s.attempts a b → FasterByMillis s.attempts a b)
    (hordered : (Strategy.leastLatency s.store).selectOrdered env request targets = .ok ordered) :
    RankedByOwn s.attempts ordered := by
  rcases targets with - | ⟨first, others⟩
  · cases hordered
  have hranked : OfEachEndpoint (first :: others) ordered ∧
      Lists.SortedBy (fun t ↦ s.store.getAvgLatency t.provider) (first :: others) ordered := by
    obtain rfl := Except.ok.inj hordered
    exact sortedBy_dedupTargets (fun _ _ ↦ decide_eq_true_iff) _
  intro a ha b hb hfaster
  obtain ⟨x, hx, y, hy, hlt⟩ :=
    hmillis a (hranked.1.subset ha) b (hranked.1.subset hb) hfaster
  have havg : s.store.getAvgLatency a.provider < s.store.getAvgLatency b.provider := by
    rwa [h.getAvgLatency hx, h.getAvgLatency hy]
  have hne : a ≠ b := by
    rintro rfl
    exact lt_irrefl _ havg
  refine (Lists.pair_sublist_or ha hb hne).resolve_right fun hba ↦ ?_
  exact absurd (List.pairwise_iff_forall_sublist.1 hranked.2.1 hba) (not_le.2 havg)

/-- The entry of a provider after another of its operations. -/
theorem Tracked.store_record (h : s.Tracked) {a : Attempt} (ha : s.Separate a) (p : String) :
    (s.store.record a.target.provider a.latencyMs).stats.get p =
      entryOf (providerLatencies (s.attempts ++ [a]) p) := by
  rw [providerLatencies_append]
  by_cases hp : a.target.provider = p
  · subst hp
    have hentry : (s.store.stats.get a.target.provider).getD ⟨0, 0⟩ =
        ⟨totalMs (providerLatencies s.attempts a.target.provider),
          (providerLatencies s.attempts a.target.provider).length⟩ := by
      rw [h.store, entryOf]
      rcases providerLatencies s.attempts a.target.provider with - | ⟨ms, l⟩
      · rfl
      · rfl
    rw [LatencyStore.record, hentry]
    show (s.store.stats.insert _ _).get _ = _
    rw [KeyMap.get_insert_self, Nat.mod_eq_of_lt ha.sum, Nat.mod_eq_of_lt ha.count, if_pos rfl,
      entryOf, if_neg (by simp), totalMs_append_singleton, List.length_append,
      List.length_singleton]
  · rw [if_neg hp, List.append_nil, ← h.store p]
    exact KeyMap.get_insert_of_ne (fun hpp ↦ hp hpp.symm)

theorem tracked_invariant : (runs.guard KeptApart).Invariant Tracked where
  init := by
    rintro s rfl
    exact tracked_new
  step := by
    rintro s op s' h ⟨hstep, hok⟩
    obtain rfl := Option.some.inj hstep
    rcases op with a | ⟨env, request, targets⟩
    · refine ⟨?_, ?_, h.store_record hok, h.ranked⟩
      · intro b hb
        rcases List.mem_append.1 hb with hb | hb
        · exact h.ok b hb
        · rw [List.mem_singleton.1 hb]
          exact hok.ok
      · intro b hb c hc hprovider
        rcases List.mem_append.1 hb with hb | hb <;> rcases List.mem_append.1 hc with hc | hc
        · exact h.apart b hb c hc hprovider
        · rw [List.mem_singleton.1 hc] at hprovider ⊢
          exact hok.alone b hb hprovider
        · rw [List.mem_singleton.1 hb] at hprovider ⊢
          exact (hok.alone c hc hprovider.symm).symm
        · rw [List.mem_singleton.1 hb, List.mem_singleton.1 hc]
    · rw [step]
      split
      · rename_i ordered hordered
        refine ⟨h.ok, h.apart, h.store, fun choice hchoice ↦ ?_⟩
        rcases List.mem_append.1 hchoice with hold | hnew
        · exact h.ranked choice hold
        · rw [List.mem_singleton.1 hnew]
          exact h.rankedByOwn hok hordered
      · exact h

end Tracked

/-- The store after a number of operations. -/
theorem store_foldl_attempts (attempts : List Attempt) (s : LatencyRun) :
    ((attempts.map LatencyOp.attempt).foldl step s).store =
      (attempts.map fun a ↦ (a.target.provider, a.latencyMs)).foldl
        (fun store entry ↦ store.record entry.1 entry.2) s.store := by
  induction attempts generalizing s with
  | nil => rfl
  | cons a attempts ih => exact ih (s.step (.attempt a))

/-- In every run whose steps keep the endpoints apart, every selection tries the endpoint with the
lower mean first. -/
theorem leastLatency_ranks {s : LatencyRun} (h : (runs.guard KeptApart).Reachable s) :
    ∀ choice ∈ s.choices, RankedByOwn choice.attempts choice.ordered :=
  (tracked_invariant.of_reachable h).ranked

/-- An endpoint of a provider type. -/
def endpointNamed (id provider : String) : Target :=
  { Target.ofProvider provider with id := some id }

/-- A selection among two endpoints. -/
def selectAmong (a b : Target) : LatencyOp :=
  .select ⟨id, fun _ _ ↦ false, 0, fun _ ↦ 0⟩ (.ofMessages "gpt-4o" [.user "hello"]) [a, b]

/-- Two endpoints of two providers, each with a completion. -/
theorem leastLatency_ranks_apart : ∃ s, (runs.guard KeptApart).Reachable s ∧
    ∀ choice ∈ s.choices, RankedByOwn choice.attempts choice.ordered := by
  let slow := endpointNamed "slow" "openai"
  let fast := endpointNamed "fast" "gemini"
  have hslow : Separate new ⟨slow, true, 100⟩ :=
    ⟨rfl, fun b hb ↦ absurd hb List.not_mem_nil, by decide, by decide⟩
  have hfast : Separate (new.step (.attempt ⟨slow, true, 100⟩)) ⟨fast, true, 10⟩ :=
    ⟨rfl, by decide, by decide, by decide⟩
  have hmillis : ∀ a ∈ [slow, fast], ∀ b ∈ [slow, fast],
      Faster [⟨slow, true, 100⟩, ⟨fast, true, 10⟩] a b →
        FasterByMillis [⟨slow, true, 100⟩, ⟨fast, true, 10⟩] a b := by
    decide +kernel
  have hselect := reachable_step
    (reachable_step (reachable_step (.init rfl) (.attempt _) hslow) (.attempt _) hfast)
    (selectAmong slow fast) hmillis
  exact ⟨_, hselect, leastLatency_ranks hselect⟩

/-- The slow endpoint answers the first call and fails the second, which falls back to the fast one;
the third call selects. -/
def sharedProvider : List LatencyOp :=
  let slow := endpointNamed "slow" "openai"
  let fast := endpointNamed "fast" "openai"
  [selectAmong slow fast, .attempt ⟨slow, true, 100⟩, selectAmong slow fast,
    .attempt ⟨slow, false, 5⟩, .attempt ⟨fast, true, 10⟩, selectAmong slow fast]

theorem sharedProvider_slow_first :
    ¬∀ s, runs.Reachable s → ∀ choice ∈ s.choices, RankedByOwn choice.attempts choice.ordered := by
  intro h
  let slow := endpointNamed "slow" "openai"
  let fast := endpointNamed "fast" "openai"
  let attempts : List Attempt := [⟨slow, true, 100⟩, ⟨slow, false, 5⟩, ⟨fast, true, 10⟩]
  have hreachable : runs.Reachable (sharedProvider.foldl step new) :=
    TransitionSystem.Reachable.leads (.init rfl) (leads_foldl sharedProvider new)
  -- the store has one mean for both, so the sort leaves them as they are listed
  have horder (store : LatencyStore) :
      dedupTargets (leastLatencyOrder store [slow, fast]) = [slow, fast] := by
    rw [leastLatencyOrder, List.mergeSort_of_pairwise]
    · rfl
    · exact List.pairwise_pair.2 (decide_eq_true le_rfl)
  have hchoice : ⟨attempts, [slow, fast]⟩ ∈ (sharedProvider.foldl step new).choices := by
    rw [← horder (sharedProvider.foldl step new).store]
    exact List.mem_append_right _ List.mem_cons_self
  have hfaster : Faster attempts fast slow := by decide +kernel
  have hranked : [fast, slow].Sublist [slow, fast] :=
    h _ hreachable _ hchoice fast (by decide) slow (by decide) hfaster
  exact absurd hranked (by decide)

end LatencyRun

namespace FailoverCall

variable {config : CircuitBreakerConfig} {α β : Type*} (c : FailoverCall config α β)

/-- The operation that ran at position `i`, as it is timed. -/
def attemptAt (i : ℕ) : Option Attempt :=
  c.ordered[i]?.bind fun target ↦
    if (c.gateway.operation c.vars c.op target (c.trialAt i target)).isSome then
      some ⟨target, (c.encounter i).result.isOk, (c.encounter i).latencyMs⟩
    else none

/-- The store is told of the operations that ran. -/
theorem latencyAt_eq (hstore : c.latencyStore = true) (i : ℕ) :
    c.latencyAt i = (c.attemptAt i).toList.map fun a ↦ (a.target.provider, a.latencyMs) := by
  rw [latencyAt, attemptAt, hstore]
  rcases c.ordered[i]? with - | target
  · rfl
  · simp only [Bool.true_and, Option.bind_some]
    split_ifs
    · rfl
    · rfl

/-- What a call records is what the steps of its operations record. -/
theorem withFailover_record (hstore : c.latencyStore = true) (hne : c.ordered ≠ [])
    (s : LatencyRun) :
    ∃ run m target, c.withFailover = some run ∧ c.StopsAt m target ∧
      run.latencies.foldl (fun store entry ↦ store.record entry.1 entry.2) s.store =
        ((((List.range (m + 1)).filterMap c.attemptAt).map LatencyOp.attempt).foldl
          LatencyRun.step s).store := by
  obtain ⟨run, m, target, hrun, hstop, hend⟩ := c.exists_stop hne
  refine ⟨run, m, target, hrun, hstop, ?_⟩
  rw [LatencyRun.store_foldl_attempts, hend.latencies]
  refine congrArg (List.foldl _ s.store) ?_
  rw [List.filterMap_eq_flatMap_toList, List.map_flatMap]
  exact congrArg (List.flatMap · _) (funext (c.latencyAt_eq hstore))

end FailoverCall

end Himadri
