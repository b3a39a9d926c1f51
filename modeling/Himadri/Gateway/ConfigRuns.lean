import Himadri.Gateway.Config
import Himadri.Transition.System
import Himadri.Transition.Tasks
import Mathlib.Data.List.Range

/-!
# Concurrent configuration changes

Any number of `reload_config` and `rollback_config` calls over one gateway, interleaved at the
points where they hold no lock. The run keeps every configuration that was swapped in, in that order
(`applied`), and each call remembers its place in it.

A swap and its record are under different locks, so calls can swap in one order and record in the
other. In the runs that record in the order they swapped (`InTurn`) the history is always a prefix
of `applied` (`Recorded`), and it is all of `applied` once no call is between the two.
-/

namespace Himadri

/-- Where a call of `reload_config` or `rollback_config` stands. -/
inductive ConfigCall
  /-- `rollback_config` before it has read the history. -/
  | lookup (version : ℕ)
  /-- Before the swap, with the version rolled back from. -/
  | apply (config : Config) (rolledBackFrom : Option ℕ)
  /-- Swapped in as number `turn`; the limiter and the breakers are to be retuned. -/
  | retune (config : Config) (rolledBackFrom : Option ℕ) (turn : ℕ)
  /-- Retuned and to be recorded. -/
  | record (config : Config) (rolledBackFrom : Option ℕ) (turn : ℕ)
  | returned (result : Except GatewayError Unit)

namespace ConfigCall

/-- A call that has swapped its configuration in and not recorded it, with its turn. -/
def unrecorded : ConfigCall → Option (ℕ × Config)
  | .retune config _ turn => some (turn, config)
  | .record config _ turn => some (turn, config)
  | _ => none

/-- The call has swapped its configuration in, or has returned without an error. -/
def Committed : ConfigCall → Prop
  | .retune _ _ _ => True
  | .record _ _ _ => True
  | .returned result => result = .ok ()
  | _ => False

/-- The call has returned. -/
def Done : ConfigCall → Prop
  | .returned _ => True
  | _ => False

instance : ∀ call : ConfigCall, Decidable call.Done
  | .returned _ => inferInstanceAs (Decidable True)
  | .lookup _ => inferInstanceAs (Decidable False)
  | .apply _ _ => inferInstanceAs (Decidable False)
  | .retune _ _ _ => inferInstanceAs (Decidable False)
  | .record _ _ _ => inferInstanceAs (Decidable False)

end ConfigCall

/-- One step, of call `j` where it names one. -/
inductive ConfigOp
  | reload (config : Config)
  | rollback (version : ℕ)
  | lookup (j : ℕ)
  | swap (j : ℕ)
  | retune (j : ℕ)
  | record (j : ℕ)

/-- The call a step moves; the first two start one. -/
def ConfigOp.call : ConfigOp → Option ℕ
  | .reload _ => none
  | .rollback _ => none
  | .lookup j => some j
  | .swap j => some j
  | .retune j => some j
  | .record j => some j

/-- The gateway, the calls in the order they came, and the configurations that have been live. -/
structure ConfigRun where
  gateway : Gateway
  calls : List ConfigCall
  applied : List Config

namespace ConfigRun

variable (regexNew : String → Option Regex)

/-- A gateway booted with a configuration. -/
def boot (config : Config) : ConfigRun := ⟨.new regexNew config, [], [config]⟩

variable (s : ConfigRun)

/-- Call `j` moves. -/
def move (j : ℕ) (call : ConfigCall) : ConfigRun := { s with calls := s.calls.set j call }

/-- One step. -/
def step? : ConfigOp → Option ConfigRun
  | .reload config => some { s with calls := s.calls ++ [.apply config none] }
  | .rollback version => some { s with calls := s.calls ++ [.lookup version] }
  | .lookup j =>
    match s.calls[j]? with
    | some (.lookup version) =>
      match s.gateway.configHistory.lookup version with
      | .ok config => some (s.move j (.apply config (some version)))
      | .error e => some (s.move j (.returned (.error e)))
    | _ => none
  | .swap j =>
    match s.calls[j]? with
    | some (.apply config rolledBackFrom) =>
      match config.prepare with
      | .ok prepared =>
        some
          { gateway := s.gateway.swapConfig regexNew prepared
            calls := s.calls.set j (.retune config rolledBackFrom s.applied.length)
            applied := s.applied ++ [config] }
      | .error e => some (s.move j (.returned (.error e)))
    | _ => none
  | .retune j =>
    match s.calls[j]? with
    | some (.retune config rolledBackFrom turn) =>
      some
        { s.move j (.record config rolledBackFrom turn) with
          gateway := s.gateway.retune config.applyGuardrailDeprecations }
    | _ => none
  | .record j =>
    match s.calls[j]? with
    | some (.record config rolledBackFrom _) =>
      some
        { s.move j (.returned (.ok ())) with
          gateway := s.gateway.recordConfig config rolledBackFrom }
    | _ => none

/-- The runs of a gateway booted with a configuration that loading has normalised. -/
def runs : TransitionSystem ConfigRun ConfigOp :=
  .ofPartial
    (fun s ↦ ∃ config, config.applyGuardrailDeprecations = config ∧ s = boot regexNew config)
    (step? regexNew)

/-- A record is made by the call whose turn it is, while the version number fits its `u32`. -/
def InTurn : ConfigOp → Prop
  | .record j =>
    ∀ c ∈ s.calls[j]?, ∀ p ∈ c.unrecorded, p.1 = s.gateway.configHistory.entries.length ∧
      s.gateway.configHistory.entries.length + 1 < UInt32.size
  | _ => True

instance : ∀ op, Decidable (s.InTurn op)
  | .record j => inferInstanceAs (Decidable (∀ c ∈ s.calls[j]?, ∀ p ∈ c.unrecorded, _ ∧ _))
  | .reload _ => inferInstanceAs (Decidable True)
  | .rollback _ => inferInstanceAs (Decidable True)
  | .lookup _ => inferInstanceAs (Decidable True)
  | .swap _ => inferInstanceAs (Decidable True)
  | .retune _ => inferInstanceAs (Decidable True)

/-! ### What a step can do -/

section Inversion

variable {regexNew} {s} {s' : ConfigRun} {j : ℕ}

theorem step?_lookup (h : s.step? regexNew (.lookup j) = some s') :
    ∃ version, s.calls[j]? = some (.lookup version) ∧
      ∃ call, call.unrecorded = none ∧ s' = s.move j call := by
  simp only [step?] at h
  split at h
  · next version hj =>
    refine ⟨version, hj, ?_⟩
    split at h
    · exact ⟨_, rfl, (Option.some.inj h).symm⟩
    · exact ⟨_, rfl, (Option.some.inj h).symm⟩
  · cases h

theorem step?_swap (h : s.step? regexNew (.swap j) = some s') :
    ∃ config rolledBackFrom, s.calls[j]? = some (.apply config rolledBackFrom) ∧
      ((∃ prepared, config.prepare = .ok prepared ∧
          s' =
            { gateway := s.gateway.swapConfig regexNew prepared
              calls := s.calls.set j (.retune config rolledBackFrom s.applied.length)
              applied := s.applied ++ [config] }) ∨
        ∃ e, config.prepare = .error e ∧ s' = s.move j (.returned (.error e))) := by
  simp only [step?] at h
  split at h
  · next config rolledBackFrom hj =>
    refine ⟨config, rolledBackFrom, hj, ?_⟩
    cases hp : config.prepare with
    | ok prepared =>
      rw [hp] at h
      exact .inl ⟨prepared, rfl, (Option.some.inj h).symm⟩
    | error e =>
      rw [hp] at h
      exact .inr ⟨e, rfl, (Option.some.inj h).symm⟩
  · cases h

theorem step?_retune (h : s.step? regexNew (.retune j) = some s') :
    ∃ config rolledBackFrom turn, s.calls[j]? = some (.retune config rolledBackFrom turn) ∧
      s' =
        { s.move j (.record config rolledBackFrom turn) with
          gateway := s.gateway.retune config.applyGuardrailDeprecations } := by
  simp only [step?] at h
  split at h
  · next config rolledBackFrom turn hj =>
    exact ⟨config, rolledBackFrom, turn, hj, (Option.some.inj h).symm⟩
  · cases h

theorem step?_record (h : s.step? regexNew (.record j) = some s') :
    ∃ config rolledBackFrom turn, s.calls[j]? = some (.record config rolledBackFrom turn) ∧
      s' =
        { s.move j (.returned (.ok ())) with
          gateway := s.gateway.recordConfig config rolledBackFrom } := by
  simp only [step?] at h
  split at h
  · next config rolledBackFrom turn hj =>
    exact ⟨config, rolledBackFrom, turn, hj, (Option.some.inj h).symm⟩
  · cases h

/-- The three steps of a call that nothing interrupts are `apply_config` and the record. -/
theorem foldlM_apply {config prepared : Config} {rolledBackFrom : Option ℕ}
    (hj : s.calls[j]? = some (.apply config rolledBackFrom)) (hp : config.prepare = .ok prepared) :
    ∃ s', [.swap j, .retune j, .record j].foldlM (step? regexNew) s = some s' ∧
      s'.gateway = (s.gateway.applyAndRecord regexNew config rolledBackFrom).1 := by
  have hlt := (List.getElem?_eq_some_iff.1 hj).1
  obtain rfl := Config.prepare_eq_ok hp
  rw [Gateway.applyAndRecord_of_prepared hp]
  refine ⟨⟨_, s.calls.set j (.returned (.ok ())), s.applied ++ [config]⟩, ?_, rfl⟩
  have hset : ∀ c, (s.calls.set j c)[j]? = some c := fun c ↦ List.getElem?_set_self hlt
  simp only [List.foldlM_cons, List.foldlM_nil, step?, hj, hp, Option.bind_eq_bind,
    Option.bind_some, move, hset, List.set_set]
  rfl

end Inversion

/-! ### The invariant -/

/-- The history is the part of `applied` that has been recorded, and the rest is in the hands of
calls between their swap and their record. -/
structure Recorded : Prop where
  live : ∃ last, s.applied.getLast? = some last ∧
    s.gateway.config = last.applyGuardrailDeprecations
  recorded : s.gateway.configHistory.entries.map (·.config) <+: s.applied
  versions : s.gateway.configHistory.entries.map (·.version) =
    List.range' 1 s.gateway.configHistory.entries.length
  nextVersion : s.gateway.configHistory.nextVersion =
    (s.gateway.configHistory.entries.length + 1) % UInt32.size
  turns : ∀ c ∈ s.calls, ∀ p ∈ c.unrecorded, s.applied[p.1]? = some p.2
  unrecorded : (Tasks.holdings ConfigCall.unrecorded s.calls).card +
    s.gateway.configHistory.entries.length = s.applied.length
  /-- Every configuration but the one booted with has passed validation. -/
  checked : ∀ config ∈ s.applied.tail, ∃ prepared, config.prepare = .ok prepared

namespace Recorded

variable {regexNew} {s} {s' : ConfigRun} {j : ℕ}

theorem boot {config : Config} (h : config.applyGuardrailDeprecations = config) :
    (boot regexNew config).Recorded where
  live := ⟨config, rfl, h.symm⟩
  recorded := List.prefix_rfl
  versions := rfl
  nextVersion := rfl
  turns c hc := by cases hc
  unrecorded := rfl
  checked config' hmem := by cases hmem

/-- A step that touches neither the live configuration, the history nor the calls between their swap
and their record. -/
theorem of_eq (h : s.Recorded) (hconfig : s'.gateway.config = s.gateway.config)
    (hhistory : s'.gateway.configHistory = s.gateway.configHistory)
    (happlied : s'.applied = s.applied)
    (hturns : ∀ c ∈ s'.calls, ∀ p ∈ c.unrecorded, s.applied[p.1]? = some p.2)
    (hcard : Tasks.holdings ConfigCall.unrecorded s'.calls =
      Tasks.holdings ConfigCall.unrecorded s.calls) : s'.Recorded := by
  refine ⟨?_, ?_, ?_, ?_, ?_, ?_, ?_⟩
  · rw [happlied, hconfig]
    exact h.live
  · rw [happlied, hhistory]
    exact h.recorded
  · rw [hhistory]
    exact h.versions
  · rw [hhistory]
    exact h.nextVersion
  · rw [happlied]
    exact hturns
  · rw [hcard, hhistory, happlied]
    exact h.unrecorded
  · rw [happlied]
    exact h.checked

/-- A new call has swapped nothing in. -/
theorem add (h : s.Recorded) {call : ConfigCall} (hcall : call.unrecorded = none) :
    Recorded { s with calls := s.calls ++ [call] } := by
  refine h.of_eq rfl rfl rfl ?_ ?_
  · intro c hc p hp
    rcases List.mem_append.1 hc with hc | hc
    · exact h.turns c hc p hp
    · rw [List.mem_singleton.1 hc, hcall] at hp
      cases hp
  · rw [Tasks.holdings_append_singleton, hcall]
    exact Multiset.add_zero _

/-- A call that moves within its phase: what it holds unrecorded stays. -/
theorem advance (h : s.Recorded) {c : ConfigCall} (c' : ConfigCall) (hj : s.calls[j]? = some c)
    (hsame : c'.unrecorded = c.unrecorded) {g : Gateway} (hconfig : g.config = s.gateway.config)
    (hhistory : g.configHistory = s.gateway.configHistory) :
    Recorded { s.move j c' with gateway := g } := by
  refine h.of_eq hconfig hhistory rfl ?_ (Tasks.holdings_set_of_eq _ _ hj hsame)
  intro d hd p hp
  rcases List.mem_or_eq_of_mem_set hd with hd | rfl
  · exact h.turns d hd p hp
  · rw [hsame] at hp
    exact h.turns c (List.mem_of_getElem? hj) p hp

theorem swap (h : s.Recorded) (hstep : s.step? regexNew (.swap j) = some s') : s'.Recorded := by
  obtain ⟨config, rolledBackFrom, hj, ⟨prepared, hp, rfl⟩ | ⟨e, -, rfl⟩⟩ := step?_swap hstep
  · obtain ⟨last, hlast, -⟩ := h.live
    refine ⟨⟨config, by simp, Config.prepare_eq_ok hp⟩, h.recorded.trans (List.prefix_append _ _),
      h.versions, h.nextVersion, fun d hd p hmem ↦ ?_, ?_, fun config' hmem ↦ ?_⟩
    · rcases List.mem_or_eq_of_mem_set hd with hd | rfl
      · have hold := h.turns d hd p hmem
        rw [List.getElem?_append_left (List.getElem?_eq_some_iff.1 hold).1]
        exact hold
      · obtain rfl := Option.mem_some_iff.1 hmem
        simp
    -- the call now holds the configuration it has still to record
    · have hgain : Tasks.holdings ConfigCall.unrecorded
          (s.calls.set j (.retune config rolledBackFrom s.applied.length)) =
          (s.applied.length, config) ::ₘ Tasks.holdings ConfigCall.unrecorded s.calls :=
        Tasks.holdings_set_gain hj rfl rfl
      rw [hgain, Multiset.card_cons, List.length_append]
      have hcount := h.unrecorded
      simp only [List.length_cons, List.length_nil, Gateway.swapConfig]
      omega
    · have hne : s.applied ≠ [] := by
        rintro hnil
        rw [hnil] at hlast
        cases hlast
      rw [List.tail_append_of_ne_nil hne] at hmem
      rcases List.mem_append.1 hmem with hmem | hmem
      · exact h.checked config' hmem
      · rw [List.mem_singleton.1 hmem]
        exact ⟨prepared, hp⟩
  · exact h.advance (.returned (.error e)) hj rfl rfl rfl

/-- A prefix grows by the entry that follows it. -/
private theorem prefix_concat {α : Type*} {l m : List α} {a : α} (h : l <+: m)
    (ha : m[l.length]? = some a) : l ++ [a] <+: m := by
  obtain ⟨rest, rfl⟩ := h
  rw [List.getElem?_append_right le_rfl, Nat.sub_self] at ha
  cases rest with
  | nil => cases ha
  | cons b rest =>
    obtain rfl : b = a := Option.some.inj ha
    exact ⟨rest, by simp⟩

theorem record (h : s.Recorded) (hok : s.InTurn (.record j))
    (hstep : s.step? regexNew (.record j) = some s') : s'.Recorded := by
  obtain ⟨config, rolledBackFrom, turn, hj, rfl⟩ := step?_record hstep
  obtain ⟨hturn, hfits⟩ := hok _ hj (turn, config) rfl
  have hplace := h.turns _ (List.mem_of_getElem? hj) (turn, config) rfl
  -- the version written is the number of the entry
  have hversion : max s.gateway.configHistory.nextVersion 1 =
      s.gateway.configHistory.entries.length + 1 := by
    rw [h.nextVersion, Nat.mod_eq_of_lt hfits]
    exact max_eq_left (Nat.le_add_left 1 _)
  have hlose : Tasks.holdings ConfigCall.unrecorded s.calls =
      (turn, config) ::ₘ Tasks.holdings ConfigCall.unrecorded
        (s.calls.set j (.returned (.ok ()))) := Tasks.holdings_set_lose hj rfl rfl
  refine ⟨h.live, ?_, ?_, ?_, fun d hd p hmem ↦ ?_, ?_, h.checked⟩
  · simp only [Gateway.recordConfig, ConfigHistory.record, List.map_append, List.map_cons,
      List.map_nil]
    refine prefix_concat h.recorded ?_
    rw [List.length_map, ← hturn]
    exact hplace
  · simp only [Gateway.recordConfig, ConfigHistory.record, List.map_append, List.map_cons,
      List.map_nil, List.length_append, List.length_cons, List.length_nil]
    rw [List.range'_1_concat, h.versions, hversion, Nat.add_comm 1]
  · simp only [Gateway.recordConfig, ConfigHistory.record, hversion, List.length_append,
      List.length_cons, List.length_nil]
  · rcases List.mem_or_eq_of_mem_set hd with hd | rfl
    · exact h.turns d hd p hmem
    · cases hmem
  · have hcount := h.unrecorded
    rw [hlose, Multiset.card_cons] at hcount
    simp only [Gateway.recordConfig, ConfigHistory.record, List.length_append, List.length_cons,
      List.length_nil, move]
    omega

theorem step {op : ConfigOp} (h : s.Recorded) (hok : s.InTurn op)
    (hstep : s.step? regexNew op = some s') : s'.Recorded := by
  cases op with
  | reload config =>
    obtain rfl := Option.some.inj hstep
    exact h.add rfl
  | rollback version =>
    obtain rfl := Option.some.inj hstep
    exact h.add rfl
  | lookup j =>
    obtain ⟨version, hj, call, hcall, rfl⟩ := step?_lookup hstep
    exact h.advance call hj hcall rfl rfl
  | swap j => exact h.swap hstep
  | retune j =>
    obtain ⟨config, rolledBackFrom, turn, hj, rfl⟩ := step?_retune hstep
    exact h.advance (.record config rolledBackFrom turn) hj rfl rfl rfl
  | record j => exact h.record hok hstep

/-- Once no call is between its swap and its record, everything applied is recorded. -/
theorem applied_eq (h : s.Recorded) (hdone : ∀ c ∈ s.calls, c.unrecorded = none) :
    s.gateway.configHistory.entries.map (·.config) = s.applied := by
  have hcount := h.unrecorded
  rw [Tasks.holdings_eq_zero hdone, Multiset.card_zero, Nat.zero_add] at hcount
  exact h.recorded.eq_of_length (by rw [List.length_map, hcount])

end Recorded

theorem recorded_invariant : ((runs regexNew).guard InTurn).Invariant Recorded where
  init s hs := by
    obtain ⟨config, hconfig, rfl⟩ := hs
    exact .boot hconfig
  step _ _ _ h hstep := h.step hstep.2 hstep.1

/-! ### Calls that fail -/

section Committed

variable {regexNew} {s} {s' : ConfigRun} {op : ConfigOp}

/-- Only a call that has got past validation changes the gateway. -/
theorem committed_of_ne (hstep : s.step? regexNew op = some s') (hne : s'.gateway ≠ s.gateway) :
    ∃ j c, op.call = some j ∧ s'.calls[j]? = some c ∧ c.Committed := by
  have hset : ∀ {j : ℕ} {c : ConfigCall} (c' : ConfigCall), s.calls[j]? = some c →
      (s.calls.set j c')[j]? = some c' := fun c' hj ↦
    List.getElem?_set_self (List.getElem?_eq_some_iff.1 hj).1
  cases op with
  | reload config =>
    obtain rfl := Option.some.inj hstep
    exact absurd rfl hne
  | rollback version =>
    obtain rfl := Option.some.inj hstep
    exact absurd rfl hne
  | lookup j =>
    obtain ⟨version, -, call, -, rfl⟩ := step?_lookup hstep
    exact absurd rfl hne
  | swap j =>
    obtain ⟨config, rolledBackFrom, hj, ⟨prepared, -, rfl⟩ | ⟨e, -, rfl⟩⟩ := step?_swap hstep
    · exact ⟨j, _, rfl, hset _ hj, trivial⟩
    · exact absurd rfl hne
  | retune j =>
    obtain ⟨config, rolledBackFrom, turn, hj, rfl⟩ := step?_retune hstep
    exact ⟨j, _, rfl, hset _ hj, trivial⟩
  | record j =>
    obtain ⟨config, rolledBackFrom, turn, hj, rfl⟩ := step?_record hstep
    exact ⟨j, _, rfl, hset _ hj, rfl⟩

/-- Replacing the call at `i` keeps the one at `j` committed, where the new call at `i` is committed
whenever the old one was. -/
private theorem committed_set {i j : ℕ} {d d' c : ConfigCall} (hi : s.calls[i]? = some d)
    (hd : d.Committed → d'.Committed) (hj : s.calls[j]? = some c) (hc : c.Committed) :
    ∃ c', (s.calls.set i d')[j]? = some c' ∧ c'.Committed := by
  rcases eq_or_ne i j with rfl | hne
  · obtain rfl : d = c := Option.some.inj (hi.symm.trans hj)
    exact ⟨d', List.getElem?_set_self (List.getElem?_eq_some_iff.1 hj).1, hd hc⟩
  · exact ⟨c, by rwa [List.getElem?_set_ne hne], hc⟩

/-- A call that has got past validation does not fail any more. -/
theorem Committed.step {j : ℕ} {c : ConfigCall} (hstep : s.step? regexNew op = some s')
    (hj : s.calls[j]? = some c) (hc : c.Committed) :
    ∃ c', s'.calls[j]? = some c' ∧ c'.Committed := by
  have hlt := (List.getElem?_eq_some_iff.1 hj).1
  cases op with
  | reload config =>
    obtain rfl := Option.some.inj hstep
    exact ⟨c, by rwa [List.getElem?_append_left hlt], hc⟩
  | rollback version =>
    obtain rfl := Option.some.inj hstep
    exact ⟨c, by rwa [List.getElem?_append_left hlt], hc⟩
  | lookup i =>
    obtain ⟨version, hi, call, -, rfl⟩ := step?_lookup hstep
    exact committed_set hi False.elim hj hc
  | swap i =>
    obtain ⟨config, rolledBackFrom, hi, ⟨prepared, -, rfl⟩ | ⟨e, -, rfl⟩⟩ := step?_swap hstep
    · exact committed_set hi False.elim hj hc
    · exact committed_set hi False.elim hj hc
  | retune i =>
    obtain ⟨config, rolledBackFrom, turn, hi, rfl⟩ := step?_retune hstep
    exact committed_set hi (fun _ ↦ trivial) hj hc
  | record i =>
    obtain ⟨config, rolledBackFrom, turn, hi, rfl⟩ := step?_record hstep
    exact committed_set hi (fun _ ↦ rfl) hj hc

end Committed

end ConfigRun

/-! ### Rolling back -/

/-- Among entries with distinct versions a lookup finds the entry itself. -/
theorem ConfigHistory.lookup_of_mem {history : ConfigHistory} {e : ConfigHistoryEntry}
    (hnodup : (history.entries.map (·.version)).Nodup) (he : e ∈ history.entries) :
    history.lookup e.version = .ok e.config := by
  have hfound : history.entry? e.version = some e := by
    cases hfind : history.entry? e.version with
    | none =>
      have hno := List.find?_eq_none.1 hfind e he
      simp at hno
    | some e' =>
      have hversion : e'.version = e.version := by simpa using List.find?_some hfind
      have hmem : e' ∈ history.entries := List.mem_of_find?_eq_some hfind
      rw [List.inj_on_of_nodup_map hnodup hmem he hversion]
  rw [lookup, hfound]

namespace ConfigRun

variable (regexNew : String → Option Regex) {s : ConfigRun}

/-- An uninterrupted rollback leaves the entry's configuration live. -/
theorem Recorded.rollback (h : s.Recorded) {e : ConfigHistoryEntry}
    (he : e ∈ s.gateway.configHistory.entries) {prepared : Config}
    (hp : e.config.prepare = .ok prepared) :
    (s.gateway.rollbackConfig regexNew e.version).2 = .ok () ∧
      (s.gateway.rollbackConfig regexNew e.version).1.config =
        e.config.applyGuardrailDeprecations := by
  have hnodup : (s.gateway.configHistory.entries.map (·.version)).Nodup := by
    rw [h.versions]
    exact List.nodup_range'
  rw [Gateway.rollbackConfig, ConfigHistory.lookup_of_mem hnodup he]
  have hok : (s.gateway.applyAndRecord regexNew e.config (some e.version)).2 = .ok () := by
    rw [Gateway.applyAndRecord_of_prepared hp]
  exact ⟨hok, Gateway.config_applyAndRecord hok⟩

/-- **The history agrees with the live configuration**, in every run whose calls record in the order
they swapped. Once all calls have returned, the versions count up from one and the live
configuration is the newest entry's; rolling back to an entry restores it, and only the boot entry
can fail to validate; and a call that fails has changed nothing, since only committed calls change
the gateway and a committed call does not fail. -/
theorem history_agrees (hs : ((runs regexNew).guard InTurn).Reachable s) :
    ((∀ c ∈ s.calls, c.Done) →
      s.gateway.configHistory.entries.map (·.version) =
          List.range' 1 s.gateway.configHistory.entries.length ∧
        ∃ newest, s.gateway.configHistory.entries.getLast? = some newest ∧
          s.gateway.config = newest.config.applyGuardrailDeprecations) ∧
    (∀ e ∈ s.gateway.configHistory.entries, ∀ prepared, e.config.prepare = .ok prepared →
      (s.gateway.rollbackConfig regexNew e.version).2 = .ok () ∧
        (s.gateway.rollbackConfig regexNew e.version).1.config =
          e.config.applyGuardrailDeprecations) ∧
    (∀ e ∈ s.gateway.configHistory.entries.tail, ∃ prepared, e.config.prepare = .ok prepared) ∧
    (∀ (op : ConfigOp) (s' : ConfigRun), (runs regexNew).Step s op s' → s'.gateway ≠ s.gateway →
      ∃ (j : ℕ) (c : ConfigCall), op.call = some j ∧ s'.calls[j]? = some c ∧ c.Committed) ∧
    ∀ (op : ConfigOp) (s' : ConfigRun) (j : ℕ) (c : ConfigCall), (runs regexNew).Step s op s' →
      s.calls[j]? = some c → c.Committed →
        ∃ c' : ConfigCall, s'.calls[j]? = some c' ∧ c'.Committed := by
  have h := (recorded_invariant regexNew).of_reachable hs
  refine ⟨fun hdone ↦ ⟨h.versions, ?_⟩, fun e he prepared hp ↦ h.rollback regexNew he hp, ?_,
    fun op s' hstep hne ↦ committed_of_ne hstep hne,
    fun op s' j c hstep hj hc ↦ Committed.step hstep hj hc⟩
  -- once all calls have returned, what was applied is what is recorded
  · have hall := h.applied_eq fun c hc ↦ by
      have hcdone := hdone c hc
      cases c with
      | returned result => rfl
      | lookup version => exact hcdone.elim
      | apply config rolledBackFrom => exact hcdone.elim
      | retune config rolledBackFrom turn => exact hcdone.elim
      | record config rolledBackFrom turn => exact hcdone.elim
    obtain ⟨last, hlast, hlive⟩ := h.live
    rw [← hall, List.getLast?_map] at hlast
    obtain ⟨newest, hnewest, rfl⟩ := Option.map_eq_some_iff.1 hlast
    exact ⟨newest, hnewest, hlive⟩
  -- behind the first entry there are only configurations that calls applied
  · intro e he
    obtain ⟨rest, hrest⟩ := h.recorded
    refine h.checked e.config ?_
    have hmem : e.config ∈ (s.gateway.configHistory.entries.map (·.config)).tail := by
      rw [← List.map_tail]
      exact List.mem_map_of_mem he
    rw [← hrest]
    cases hentries : s.gateway.configHistory.entries.map (·.config) with
    | nil =>
      rw [hentries] at hmem
      cases hmem
    | cons first more =>
      rw [hentries] at hmem
      exact List.mem_append_left _ hmem

/-- Two reloads, of fallback timeouts 1 and 2. -/
def twoReloads : List ConfigOp :=
  [1, 2].map fun ms ↦
    .reload
      { Config.default with strategy := { StrategyConfig.default with fallbackTimeoutMs := ms } }

/-- A compiler that accepts every expression. -/
private def anyRegex (pattern : String) : Option Regex := some ⟨pattern⟩

/-- The second reload runs after the first: the history and the live configuration agree. -/
theorem history_agrees_one_after_another : ∃ s, ((runs anyRegex).guard InTurn).Reachable s ∧
    s.gateway.config.strategy.fallbackTimeoutMs = 2 ∧
      s.gateway.configHistory.entries.map (·.version) = [1, 2, 3] ∧
        ∃ newest, s.gateway.configHistory.entries.getLast? = some newest ∧
          s.gateway.config = newest.config.applyGuardrailDeprecations := by
  obtain ⟨s, hs, hlive, hdone, hlen⟩ : ∃ s, ((runs anyRegex).guard InTurn).Reachable s ∧
      s.gateway.config.strategy.fallbackTimeoutMs = 2 ∧ (∀ c ∈ s.calls, c.Done) ∧
        s.gateway.configHistory.entries.length = 3 :=
    ⟨_, TransitionSystem.reachable_guard_of_foldlM ⟨.default, rfl, rfl⟩
      (twoReloads ++ [.swap 0, .retune 0, .record 0, .swap 1, .retune 1, .record 1]) rfl, rfl,
      by decide, rfl⟩
  obtain ⟨hversions, hnewest⟩ := (history_agrees anyRegex hs).1 hdone
  rw [hlen] at hversions
  exact ⟨s, hs, hlive, hversions, hnewest⟩

/-- Both reloads swap before either records, and the first to swap records last: all calls have
returned, and the newest entry is not the live configuration. -/
theorem crossed_records_disagree : ∃ s, (runs anyRegex).Reachable s ∧ (∀ c ∈ s.calls, c.Done) ∧
    ¬ ∃ newest, s.gateway.configHistory.entries.getLast? = some newest ∧
      s.gateway.config = newest.config.applyGuardrailDeprecations := by
  refine ⟨_, TransitionSystem.reachable_of_foldlM ⟨.default, rfl, rfl⟩
    (twoReloads ++ [.swap 0, .swap 1, .retune 0, .retune 1, .record 1, .record 0]) rfl,
    by decide, ?_⟩
  rintro ⟨newest, hnewest, hlive⟩
  obtain rfl := Option.some.inj hnewest
  exact absurd (congrArg (·.strategy.fallbackTimeoutMs) hlive) (by decide)

end ConfigRun

end Himadri
