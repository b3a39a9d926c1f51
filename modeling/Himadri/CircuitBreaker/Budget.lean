import Himadri.CircuitBreaker.Tickets

/-!
# The half-open budget

A half-open breaker admits `half_open_max_calls` probes and then waits for their results. An attempt
that ends without a report (`TicketOp.abandon`) leaves its admission spent. `Returned` excludes that
for probes of the running episode, and then every admission is either a success the breaker counted
or an attempt still pending (`Budgeted`). So a breaker with no attempt pending has budget left, and
`allow_eventually` finds the time at which it admits again.
-/

namespace Himadri

open CircuitState

namespace TicketedBreaker

variable {config : CircuitBreakerConfig}

/-- The attempt does not end unreported while the half-open episode that admitted it is running. -/
def Returned (s : TicketedBreaker config) : TicketOp → Prop
  | .abandon t => s.breaker.state = stateHalfOpen → t ≠ .probe s.episode
  | _ => True

/-- Half-open, every admission is a counted success or an attempt still pending. -/
def Budgeted (s : TicketedBreaker config) : Prop :=
  s.breaker.state = stateHalfOpen →
    s.breaker.inner.halfOpenAdmitted ≤
      s.breaker.inner.successCount + s.pending.count (.probe s.episode)

section Steps

variable {s s' : TicketedBreaker config} {t : Ticket} {now : ℕ}

theorem Budgeted.step_allow (h : s.Budgeted) (hstep : s.step? (.allow now) = some s') :
    s'.Budgeted := by
  cases hst : s.breaker.inner.state with
  | stateClosed =>
    have hcall := BreakerInner.allow_closed hst config now
    obtain ⟨-, rfl⟩ | ⟨-, rfl⟩ := step?_allow hstep <;> intro hhalf <;>
      simp [grant, CircuitBreaker.allow, CircuitBreaker.state, hcall, hst] at hhalf
  | stateOpen =>
    rcases Nat.lt_or_ge (now - s.breaker.inner.lastFailureTime) config.recoveryMillis with ht | ht
    · have hcall := BreakerInner.allow_open_early hst ht
      obtain ⟨-, rfl⟩ | ⟨-, rfl⟩ := step?_allow hstep <;> intro hhalf <;>
        simp [grant, CircuitBreaker.allow, CircuitBreaker.state, hcall, hst] at hhalf
    · -- the admission that opens the episode is its first pending probe
      have hcall := BreakerInner.allow_open_late hst ht
      obtain ⟨-, rfl⟩ | ⟨hno, -⟩ := step?_allow hstep
      · intro _
        simp [grant, ticket, CircuitBreaker.allow, CircuitBreaker.state, hcall, hst]
      · simp [CircuitBreaker.allow, hcall] at hno
  | stateHalfOpen =>
    have hle := h hst
    rcases Nat.lt_or_ge s.breaker.inner.halfOpenAdmitted config.halfOpenMaxCalls with hm | hm
    -- an admission adds one to both sides, a refusal to neither
    · have hcall := BreakerInner.allow_halfOpen_spare hst hm now
      obtain ⟨-, rfl⟩ | ⟨hno, -⟩ := step?_allow hstep
      · intro _
        simp [grant, ticket, CircuitBreaker.allow, CircuitBreaker.state, hcall, hst]
        omega
      · simp [CircuitBreaker.allow, hcall] at hno
    · have hcall := BreakerInner.allow_halfOpen_full hst hm now
      obtain ⟨hyes, -⟩ | ⟨-, rfl⟩ := step?_allow hstep
      · simp [CircuitBreaker.allow, hcall] at hyes
      · intro _
        simpa [CircuitBreaker.allow, hcall] using hle

/-- A success moves one admission from the pending attempts to the counted successes; a late one
counts without having been admitted. -/
theorem Budgeted.step_success (h : s.Budgeted) (hstep : s.step? (.success t) = some s') :
    s'.Budgeted := by
  obtain ⟨-, rfl⟩ := step?_success hstep
  have hcount : s.pending.count (.probe s.episode) ≤
      (s.pending.erase t).count (.probe s.episode) + 1 := by
    have herase := Multiset.count_le_of_le (Ticket.probe s.episode) (s.pending.le_cons_erase t)
    refine herase.trans ?_
    rw [Multiset.count_cons]
    split <;> omega
  intro hhalf
  cases hst : s.breaker.inner.state with
  | stateClosed =>
    have hcall := BreakerInner.recordSuccess_closed hst config
    simp [CircuitBreaker.recordSuccess, CircuitBreaker.state, hcall, hst] at hhalf
  | stateOpen =>
    have hcall := BreakerInner.recordSuccess_open hst config
    simp [CircuitBreaker.recordSuccess, CircuitBreaker.state, hcall, hst] at hhalf
  | stateHalfOpen =>
    have hle := h hst
    rcases Nat.lt_or_ge (s.breaker.inner.successCount + 1) config.halfOpenMaxCalls with hm | hm
    · have hcall := BreakerInner.recordSuccess_halfOpen_more hst hm
      simp only [succeed, CircuitBreaker.recordSuccess, hcall]
      omega
    · have hcall := BreakerInner.recordSuccess_halfOpen_last hst hm
      simp [CircuitBreaker.recordSuccess, CircuitBreaker.state, hcall] at hhalf

theorem Budgeted.step (h : s.Budgeted) {op : TicketOp} (hok : s.Returned op)
    (hstep : s.step? op = some s') : s'.Budgeted := by
  cases op with
  | allow now => exact h.step_allow hstep
  | success t => exact h.step_success hstep
  | failure t now =>
    obtain ⟨-, rfl⟩ := step?_failure hstep
    exact fun hhalf ↦ absurd hhalf BreakerInner.recordFailure_state_ne_halfOpen
  | abandon t =>
    obtain ⟨-, rfl⟩ := step?_abandon hstep
    intro hhalf
    have hne := hok hhalf
    have hcount := Multiset.count_erase_of_ne hne.symm s.pending
    simp only [drop, hcount]
    exact h hhalf

end Steps

theorem budgeted_invariant (config : CircuitBreakerConfig) :
    ((runs config).guard Returned).Invariant Budgeted where
  init s hs := by
    rw [show s = new config from hs]
    intro hhalf
    cases hhalf
  step _ _ _ h hstep := h.step hstep.2 hstep.1

/-- With nothing pending, a budgeted breaker admits again from some time on. -/
theorem Budgeted.allow_eventually {s : TicketedBreaker config} (h : s.Budgeted)
    (hidle : s.pending = 0) (clock : ℕ) :
    ∃ now, clock ≤ now ∧ (s.breaker.allow now).2 = true := by
  cases hst : s.breaker.inner.state with
  | stateClosed =>
    refine ⟨clock, le_rfl, ?_⟩
    exact congrArg Prod.snd (BreakerInner.allow_closed hst config clock)
  | stateOpen =>
    refine ⟨clock + s.breaker.inner.lastFailureTime + config.recoveryMillis, by omega, ?_⟩
    exact congrArg Prod.snd (BreakerInner.allow_open_late hst (by omega))
  | stateHalfOpen =>
    refine ⟨clock, le_rfl, ?_⟩
    have hle := h hst
    rw [hidle, Multiset.count_zero] at hle
    have hpos := s.breaker.wellFormed.admitted_pos hst
    have hlt := s.breaker.wellFormed.success_lt hst
    exact congrArg Prod.snd (BreakerInner.allow_halfOpen_spare hst (by omega) clock)

end TicketedBreaker

end Himadri
