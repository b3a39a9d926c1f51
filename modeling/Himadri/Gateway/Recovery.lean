import Himadri.Gateway.Failover

/-!
# Breakers recover under the failover loop

The loop asks a breaker for an admission and only some outcomes of the attempt reach the breaker
again. A breaker with no attempt in flight admits again in every run in which no half-open admission
is lost, that is in which no attempt ends unreported while the episode that admitted it is still
running (`Resolves`).

The invariant is `Accounted`: the tickets a breaker counts as pending are the ones the calls hold.
With it each step of the loop is, at each address, a step of `TicketedBreaker` (`cell_simulation`),
and the budget of that system does the rest.
-/

namespace Himadri

open CircuitState

variable {config : CircuitBreakerConfig} {α : Type*}

namespace TicketedBreaker

variable (b : TicketedBreaker config) (t : Ticket) (now : ℕ)

@[simp] theorem settle_pending (report : Option BreakerReport) :
    (b.settle t report now).pending = b.pending.erase t := by
  rcases report with - | - | - <;> rfl

/-- What the breaker counts as pending after a request for admission. -/
theorem ask_pending :
    (b.ask now).pending =
      if (b.breaker.allow now).2 then b.ticket ::ₘ b.pending else b.pending := by
  unfold ask
  split <;> rfl

/-- The operation a report stands for. -/
def settleOp (report : Option BreakerReport) : TicketOp :=
  match report with
  | some .success => .success t
  | some .failure => .failure t now
  | none => .abandon t

theorem step?_settle {report : Option BreakerReport} (ht : t ∈ b.pending) :
    b.step? (settleOp t now report) = some (b.settle t report now) := by
  rcases report with - | - | - <;> simp [settleOp, settle, step?, ht]

end TicketedBreaker

namespace FailoverState

/-- Ending the attempt this way loses a half-open admission: the breaker is still in the episode
that admitted it and is not told. -/
def Loses (s : FailoverState config α) (outcome : AttemptOutcome α) : FailoverPoint α → Prop
  | .attempt _ _ cb ticket =>
    outcome.report = none ∧ (s.cell cb).breaker.state = stateHalfOpen ∧
      ticket = .probe (s.cell cb).episode
  | _ => False

/-- No half-open admission is lost. -/
def Resolves (s : FailoverState config α) : FailoverOp α → Prop
  | .finish j outcome _ => ∀ c ∈ s.calls[j]?, ¬ s.Loses outcome c
  | _ => True

instance (s : FailoverState config α) (outcome : AttemptOutcome α) :
    ∀ c, Decidable (s.Loses outcome c)
  | .attempt _ _ _ _ => inferInstanceAs (Decidable (_ ∧ _ ∧ _))
  | .candidate _ _ => inferInstanceAs (Decidable False)
  | .gate _ _ _ => inferInstanceAs (Decidable False)
  | .returned _ => inferInstanceAs (Decidable False)

instance (s : FailoverState config α) : ∀ op, Decidable (s.Resolves op)
  | .finish j outcome _ => inferInstanceAs (Decidable (∀ c ∈ s.calls[j]?, ¬ s.Loses outcome c))
  | .call _ => inferInstanceAs (Decidable True)
  | .select _ => inferInstanceAs (Decidable True)
  | .ask _ _ => inferInstanceAs (Decidable True)
  | .retain _ => inferInstanceAs (Decidable True)

/-- Addresses are in range, and the pending tickets of a breaker are the ones the calls hold. -/
structure Accounted (s : FailoverState config α) : Prop where
  mapped : ∀ key cb, s.breakers.get key = some cb → cb < s.heap.length
  held : ∀ c ∈ s.calls, ∀ cb ∈ c.address, cb < s.heap.length
  pending : ∀ i, (s.cell i).pending = tickets s.calls i

/-! ### Steps -/

namespace Accounted

variable {s : FailoverState config α} {j now : ℕ}

theorem start (config : CircuitBreakerConfig) (α : Type*) : (start config α).Accounted where
  mapped key cb h := by simp [FailoverState.start] at h
  held c h := by simp [FailoverState.start] at h
  pending i := rfl

theorem address_lt {c : FailoverPoint α} {cb : ℕ} (h : s.Accounted) (hj : s.calls[j]? = some c)
    (hcb : cb ∈ c.address) : cb < s.heap.length :=
  h.held c (List.mem_of_getElem? hj) cb hcb

/-- A call that holds a ticket holds one its breaker counts as pending. -/
theorem mem_pending {target : Target} {rest : List Target} {cb : ℕ} {ticket : Ticket}
    (h : s.Accounted) (hj : s.calls[j]? = some (.attempt target rest cb ticket)) :
    ticket ∈ (s.cell cb).pending := by
  rw [h.pending, tickets, Tasks.mem_holdings]
  exact ⟨_, List.mem_of_getElem? hj, by simp [FailoverPoint.ticketAt]⟩

/-- A call moves and the cell it works on changes with it. What is to be checked is the cell's
pending tickets against the tickets the call held before and holds now. -/
theorem put_move {c c' : FailoverPoint α} {cb : ℕ} {b : TicketedBreaker config} (h : s.Accounted)
    (hj : s.calls[j]? = some c) (hcb : cb ∈ c.address)
    (haddr : ∀ cb' ∈ c'.address, cb' = cb)
    (hother : ∀ i, i ≠ cb → c.ticketAt i = none ∧ c'.ticketAt i = none)
    (hpend : ∀ others : Multiset Ticket,
      (s.cell cb).pending = (c.ticketAt cb).toList + others →
        b.pending = (c'.ticketAt cb).toList + others) :
    ((s.put cb b).move j c').Accounted := by
  have hlt := h.address_lt hj hcb
  refine ⟨fun key cb' hget ↦ ?_, fun d hd cb' hcb' ↦ ?_, fun i ↦ ?_⟩
  · simpa [put, move] using h.mapped key cb' hget
  · simp only [put, move, List.length_set] at hd ⊢
    rcases List.mem_or_eq_of_mem_set hd with hd | rfl
    · exact h.held d hd cb' hcb'
    · rw [haddr cb' hcb']
      exact hlt
  · obtain ⟨others, hbefore, hafter⟩ :=
      Tasks.holdings_set (FailoverPoint.ticketAt i) hj
    rw [cell_move, cell_put hlt]
    -- at its own address the call trades one ticket for another, and elsewhere it holds none
    refine Eq.trans ?_ (hafter c').symm
    rcases eq_or_ne i cb with rfl | hne
    · rw [if_pos rfl]
      exact hpend others ((h.pending i).trans hbefore)
    · obtain ⟨hc, hc'⟩ := hother i hne
      rw [if_neg hne, h.pending, tickets, hbefore, hc, hc']

theorem call (h : s.Accounted) (ordered : List Target) :
    Accounted { s with calls := s.calls ++ [.start ordered] } where
  mapped := h.mapped
  held c hc cb hcb := by
    rcases List.mem_append.1 hc with hc | hc
    · exact h.held c hc cb hcb
    · rw [List.mem_singleton] at hc
      rw [hc, FailoverPoint.address_start] at hcb
      cases hcb
  pending i := by
    have hsame : tickets (s.calls ++ [.start ordered]) i = tickets s.calls i := by
      simp [tickets, Tasks.holdings_append_singleton]
    exact (h.pending i).trans hsame.symm

/-- Taking a key's breaker out of the map, or creating it, gives an address in range. -/
theorem breakerFor (h : s.Accounted) (key : String) :
    (s.breakerFor key).2.Accounted ∧ (s.breakerFor key).1 < (s.breakerFor key).2.heap.length := by
  cases hget : s.breakers.get key with
  | some cb =>
    rw [breakerFor_of_some hget]
    exact ⟨h, h.mapped key cb hget⟩
  | none =>
    have hcell : ∀ i, (s.breakerFor key).2.cell i = s.cell i := fun i ↦ cell_breakerFor key
    rw [breakerFor_of_none hget] at hcell ⊢
    refine ⟨⟨fun key' cb hget' ↦ ?_, fun c hc cb hcb ↦ ?_, fun i ↦ ?_⟩, by simp⟩
    · simp only [List.length_append, List.length_cons, List.length_nil]
      rcases eq_or_ne key' key with rfl | hne
      · simp only [KeyMap.get_insert_self, Option.some.injEq] at hget'
        omega
      · rw [KeyMap.get_insert_of_ne hne] at hget'
        exact (h.mapped key' cb hget').trans (Nat.lt_succ_self _)
    · simp only [List.length_append, List.length_cons, List.length_nil]
      exact (h.held c hc cb hcb).trans (Nat.lt_succ_self _)
    · rw [hcell]
      exact h.pending i

theorem select {s' : FailoverState config α} (h : s.Accounted)
    (hstep : s.step? (.select j) = some s') : s'.Accounted := by
  obtain ⟨target, rest, hj, rfl⟩ := step?_select hstep
  obtain ⟨hacc, hlt⟩ := h.breakerFor (routingKey target)
  rw [← breakerFor_calls (routingKey target)] at hj
  refine ⟨hacc.mapped, fun d hd cb hcb ↦ ?_, fun i ↦ ?_⟩
  · rcases List.mem_or_eq_of_mem_set hd with hd | rfl
    · exact hacc.held d hd cb hcb
    · obtain rfl := Option.mem_some_iff.1 hcb
      exact hlt
  · rw [cell_move, hacc.pending]
    exact (Tasks.holdings_set_of_eq (FailoverPoint.ticketAt i) (.gate target rest _) hj rfl).symm

theorem ask {s' : FailoverState config α} (h : s.Accounted)
    (hstep : s.step? (.ask j now) = some s') : s'.Accounted := by
  obtain ⟨target, rest, cb, hj, ⟨hyes, rfl⟩ | ⟨hno, rfl⟩⟩ := step?_ask hstep
  · refine h.put_move hj rfl (fun cb' hcb' ↦ (Option.mem_some_iff.1 hcb').symm) ?_ ?_
    · intro i hne
      exact ⟨rfl, if_neg hne.symm⟩
    · intro others hothers
      have hnone : others = (s.cell cb).pending := by
        simpa [FailoverPoint.ticketAt] using hothers.symm
      simp [TicketedBreaker.ask_pending, hyes, hnone, FailoverPoint.ticketAt]
  · refine h.put_move hj rfl ?_ ?_ ?_
    · simp [FailoverPoint.address_advance]
    · intro i hne
      exact ⟨rfl, FailoverPoint.ticketAt_advance _ _ _ _ _⟩
    · intro others hothers
      rw [TicketedBreaker.ask_pending, hno, FailoverPoint.ticketAt_advance]
      exact hothers

theorem finish {s' : FailoverState config α} {outcome : AttemptOutcome α} (h : s.Accounted)
    (hstep : s.step? (.finish j outcome now) = some s') : s'.Accounted := by
  obtain ⟨target, rest, cb, ticket, hj, rfl⟩ := step?_finish hstep
  refine h.put_move hj rfl ?_ ?_ ?_
  · simp [FailoverPoint.address_advance]
  · intro i hne
    exact ⟨if_neg hne.symm, FailoverPoint.ticketAt_advance _ _ _ _ _⟩
  · intro others hothers
    rw [TicketedBreaker.settle_pending, hothers, FailoverPoint.ticketAt_advance]
    simp [FailoverPoint.ticketAt]

theorem step {s' : FailoverState config α} {op : FailoverOp α} (h : s.Accounted)
    (hstep : s.step? op = some s') : s'.Accounted := by
  cases op with
  | call ordered =>
    obtain rfl := Option.some.inj hstep
    exact h.call ordered
  | select j => exact h.select hstep
  | ask j now => exact h.ask hstep
  | finish j outcome now => exact h.finish hstep
  | retain keep =>
    obtain rfl := Option.some.inj hstep
    refine ⟨fun key cb hget ↦ h.mapped key cb ?_, h.held, h.pending⟩
    exact (Option.ite_none_right_eq_some.1 hget).2

end Accounted

theorem accounted_invariant (config : CircuitBreakerConfig) (α : Type*) :
    (runs config α).Invariant Accounted where
  init s hs := by
    rw [show s = start config α from hs]
    exact .start config α
  step _ _ _ h hstep := h.step hstep

/-! ### One breaker at a time -/

/-- **Each breaker is a breaker**: what the loop does to the breaker at one address are steps of the
breaker with its tickets, and a loop that loses no half-open admission loses none there. -/
theorem cell_simulation (config : CircuitBreakerConfig) (α : Type*) (i : ℕ) :
    TransitionSystem.Simulation ((runs config α).guard Resolves)
      ((TicketedBreaker.runs config).guard TicketedBreaker.Returned) (·.cell i) where
  init s hs := by
    rw [show s = start config α from hs]
    rfl
  step s op s' hs hstep := by
    have hacc := (accounted_invariant config α).of_reachable hs.of_guard
    obtain ⟨hstep, hok⟩ := hstep
    cases op with
    | call ordered =>
      obtain rfl := Option.some.inj hstep
      exact .inl rfl
    | select j =>
      obtain ⟨target, rest, -, rfl⟩ := step?_select hstep
      exact .inl (by rw [cell_move, cell_breakerFor])
    | ask j now =>
      obtain ⟨target, rest, cb, hj, ⟨-, rfl⟩ | ⟨-, rfl⟩⟩ := step?_ask hstep
      -- admitted or not, it is a step of the breaker asked and of no other
      all_goals
        rw [cell_move, cell_put (hacc.address_lt hj rfl)]
        rcases eq_or_ne i cb with rfl | hne
        · rw [if_pos rfl]
          exact .inr ⟨.allow now, rfl, trivial⟩
        · exact .inl (if_neg hne)
    | finish j outcome now =>
      obtain ⟨target, rest, cb, ticket, hj, rfl⟩ := step?_finish hstep
      rw [cell_move, cell_put (hacc.address_lt hj rfl)]
      rcases eq_or_ne i cb with rfl | hne
      · rw [if_pos rfl]
        refine .inr ⟨_, TicketedBreaker.step?_settle _ ticket now (hacc.mem_pending hj), ?_⟩
        cases hreport : outcome.report with
        | none => exact fun hhalf hticket ↦ hok _ hj ⟨hreport, hhalf, hticket⟩
        | some report => cases report <;> trivial
      · exact .inl (if_neg hne)
    | retain keep =>
      obtain rfl := Option.some.inj hstep
      exact .inl rfl

/-- **A breaker with no attempt in flight admits again**, in every run of the failover loop that
loses no half-open admission. -/
theorem allows_again {s : FailoverState config α}
    (hs : ((runs config α).guard Resolves).Reachable s) {i : ℕ}
    (hidle : ∀ c ∈ s.calls, c.ticketAt i = none) (clock : ℕ) :
    ∃ now, clock ≤ now ∧ ((s.cell i).breaker.allow now).2 = true := by
  have hbudget := (TicketedBreaker.budgeted_invariant config).of_reachable
    ((cell_simulation config α i).reachable hs)
  have hacc := (accounted_invariant config α).of_reachable hs.of_guard
  refine hbudget.allow_eventually ?_ clock
  rw [hacc.pending]
  exact Tasks.holdings_eq_zero hidle

/-! ### The default breaker -/

/-- One call of the loop against a single target, in place `j`: asked at `now` and ended so. -/
def oneAttempt (target : Target) (now : ℕ) (j : ℕ) (outcome : AttemptOutcome Unit) :
    List (FailoverOp Unit) :=
  [.call [target], .select j, .ask j now, .finish j outcome now]

/-- Five calls that cannot reach the upstream open the breaker of `openai`. -/
def outage : List (FailoverOp Unit) :=
  (List.range 5).flatMap fun j ↦
    oneAttempt (.ofProvider "openai") 0 j (.executed (.error (.network "connection refused")))

/-- After the recovery timeout one probe succeeds and the breaker, half-open with nothing in flight,
admits again. -/
theorem allows_again_openai : ∃ s, ((runs .default Unit).guard Resolves).Reachable s ∧
    (s.cell 0).breaker.state = stateHalfOpen ∧
      ∃ now, 30000 ≤ now ∧ ((s.cell 0).breaker.allow now).2 = true := by
  obtain ⟨s, hs, hhalf, hidle⟩ : ∃ s, ((runs .default Unit).guard Resolves).Reachable s ∧
      (s.cell 0).breaker.state = stateHalfOpen ∧ ∀ c ∈ s.calls, c.ticketAt 0 = none :=
    ⟨_, TransitionSystem.reachable_guard_of_foldlM rfl
      (outage ++ oneAttempt (.ofProvider "openai") 30000 5 (.executed (.ok ()))) rfl, rfl,
      by decide⟩
  exact ⟨s, hs, hhalf, allows_again hs hidle 30000⟩

/-- After the recovery timeout three probes are answered 429, which the breaker is not told: it
stays half-open with its budget spent, nothing is in flight, and it admits nobody at any time. -/
theorem rate_limited_probes_wedge : ∃ s, (runs .default Unit).Reachable s ∧
    s.breakers.get "openai" = some 0 ∧ (∀ c ∈ s.calls, c.ticketAt 0 = none) ∧
      ∀ now, ((s.cell 0).breaker.allow now).2 = false := by
  refine ⟨_, TransitionSystem.reachable_of_foldlM rfl
    (outage ++ [5, 6, 7].flatMap fun j ↦ oneAttempt (.ofProvider "openai") 30000 j
      (.executed (.error (.rateLimited 60)))) rfl, rfl, by decide, fun now ↦ ?_⟩
  exact congrArg Prod.snd (BreakerInner.allow_halfOpen_full (by rfl) (by decide) now)

end FailoverState

end Himadri
