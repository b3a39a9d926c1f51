import Himadri.Plugins.Pii

/-!
# The PII response guardrail

`PiiResponseGuardrail::check_response` and the loop that runs several such guardrails. An engine may
also panic on a text: on the blocking pool that becomes an error of the task, on the caller's thread
it ends the request without an answer.
-/

namespace Himadri

/-- `PiiResponseMode`. -/
inductive PiiResponseMode
  | off
  | observe
  | redact
  | block
  deriving DecidableEq

/-- `PiiResponseSettings`. -/
structure PiiResponseSettings where
  mode : PiiResponseMode
  options : RedactOptions
  failOpen : Bool

/-- `ScanOrRedact`. -/
inductive ScanOrRedact
  | hits (hits : List PiiEntityHit)
  | redacted (out : RedactOutcome)

/-- `PiiResponseGuardrail`. -/
structure PiiResponseGuardrail where
  engine : PiiEngine
  /-- What the engine panics with on a text. -/
  panics : String → Option String
  /-- `effective_settings`. -/
  settings : PluginContext → Option PiiResponseSettings
  inlineLimitBytes : ℕ

/-- What was found, by entity types. -/
def ScanOrRedact.counts : ScanOrRedact → EntityCounts
  | .hits found => EntityCounts.addAll [] (hitCounts found)
  | .redacted out => EntityCounts.addAll [] out.replaced

namespace PiiResponseGuardrail

variable (g : PiiResponseGuardrail) (ctx : PluginContext)

/-- The call of the engine. -/
def run (settings : PiiResponseSettings) (text : String) : Except PiiError ScanOrRedact :=
  if settings.mode = .redact then (g.engine.redact text settings.options).map .redacted
  else (g.engine.scan text settings.options).map .hits

/-- What follows from the engine's result. -/
def action (settings : PiiResponseSettings) : Except PiiError ScanOrRedact → ResponseAction
  | .error _ =>
    -- a rejection, since an error would be logged and the response allowed
    if settings.failOpen then .allow
    else .reject "PII response guardrail failed; response withheld"
  | .ok outcome =>
    if outcome.counts.isEmpty then .allow
    else
      match outcome with
      | .redacted out => .redact out.text
      | .hits _ =>
        if settings.mode = .block then
          .reject ("PII detected in model output: " ++
            ", ".intercalate (outcome.counts.map Prod.fst))
        else .allow

/-- The settings under which a text is scanned at all. -/
def scanSettings (text : String) : Option PiiResponseSettings :=
  (g.settings ctx).filter fun settings ↦ !text.isEmpty && settings.mode != .off

/-- `check_response`; `none` where the caller's thread panics. -/
def checkResponse (text : String) : Option (Except PluginError ResponseAction) :=
  match g.scanSettings ctx text with
  | none => some (.ok .allow)
  | some settings =>
    match g.panics text with
    | some message =>
      if g.inlineLimitBytes < text.utf8ByteSize then
        some (.error (.internal ("PII response guardrail task failed: " ++ message)))
      else none
    | none => some (.ok (action settings (g.run settings text)))

end PiiResponseGuardrail

/-- `run_response_guardrails`, of these guardrails. -/
def runPiiGuardrails (ctx : PluginContext) (text : String) :
    List PiiResponseGuardrail → Option (Except PluginError ResponseAction)
  | [] => some (.ok .allow)
  | g :: gs =>
    match g.checkResponse ctx text with
    | some (.ok .allow) => runPiiGuardrails ctx text gs
    | other => other

/-! ### What a guardrail asks for -/

/-- What a guardrail asks for on a text. -/
inductive Stance
  | passes
  | withholds
  | rewrites (text : String)

namespace PiiResponseGuardrail

variable (g : PiiResponseGuardrail) (ctx : PluginContext)

/-- A scan that was not completed passes under `fail_open` alone. -/
def failed (settings : PiiResponseSettings) : Stance :=
  if settings.failOpen then .passes else .withholds

/-- What the settings and the engine's result ask for. -/
def stance (text : String) : Stance :=
  match g.scanSettings ctx text with
  | none => .passes
  | some settings =>
    if (g.panics text).isSome then failed settings
    else
      match g.run settings text with
      | .error _ => failed settings
      | .ok (.redacted out) => if out.replaced = [] then .passes else .rewrites out.text
      | .ok (.hits hits) =>
        if settings.mode = .block ∧ hits ≠ [] then .withholds else .passes

/-- The text as the guardrail leaves it. -/
def rewrite (text : String) : String :=
  match g.stance ctx text with
  | .rewrites text' => text'
  | _ => text

/-- The engine is asked and panics. -/
def Panics (text : String) : Prop := (g.scanSettings ctx text).isSome ∧ (g.panics text).isSome

end PiiResponseGuardrail

/-- The action that takes the stance. -/
def Stance.Taken : Stance → ResponseAction → Prop
  | .passes, a => a = .allow
  | .withholds, a => ∃ reason, a = .reject reason
  | .rewrites text, a => a = .redact text

namespace PiiResponseGuardrail

variable {g : PiiResponseGuardrail} {ctx : PluginContext} {text : String}

theorem taken_failed (settings : PiiResponseSettings) (e : PiiError) :
    (failed settings).Taken (action settings (.error e)) := by
  rw [failed, action]
  split
  · rfl
  · exact ⟨_, rfl⟩

theorem isEmpty_counts_redacted (out : RedactOutcome) :
    (ScanOrRedact.redacted out).counts.isEmpty ↔ out.replaced = [] := by
  rw [ScanOrRedact.counts, List.isEmpty_iff, EntityCounts.addAll_eq_nil]
  exact and_iff_right rfl

theorem isEmpty_counts_hits (hits : List PiiEntityHit) :
    (ScanOrRedact.hits hits).counts.isEmpty ↔ hits = [] := by
  rw [ScanOrRedact.counts, List.isEmpty_iff, EntityCounts.addAll_eq_nil, hitCounts,
    List.map_eq_nil_iff]
  exact and_iff_right rfl

/-- Without a panic the guardrail does what it asks for. -/
theorem checkResponse_of_not_panics (h : ¬g.Panics ctx text) :
    ∃ a, g.checkResponse ctx text = some (.ok a) ∧ (g.stance ctx text).Taken a := by
  rcases hsettings : g.scanSettings ctx text with - | settings
  · exact ⟨.allow, by rw [checkResponse, hsettings], by rw [stance, hsettings]; rfl⟩
  · have hnone : g.panics text = none := by
      rw [Panics, hsettings] at h
      rcases hpanics : g.panics text with - | message
      · rfl
      · exact absurd ⟨rfl, by rw [hpanics]; rfl⟩ h
    refine ⟨action settings (g.run settings text), by rw [checkResponse, hsettings, hnone], ?_⟩
    have hstance : g.stance ctx text =
        match g.run settings text with
        | .error _ => failed settings
        | .ok (.redacted out) => if out.replaced = [] then .passes else .rewrites out.text
        | .ok (.hits hits) =>
          if settings.mode = .block ∧ hits ≠ [] then .withholds else .passes := by
      rw [stance, hsettings]
      simp only [hnone]
      rfl
    rw [hstance]
    rcases g.run settings text with e | (hits | out)
    · exact taken_failed settings e
    · simp only [action, isEmpty_counts_hits]
      by_cases hhits : hits = []
      · rw [if_pos hhits, if_neg fun hboth ↦ hboth.2 hhits]
        rfl
      · rw [if_neg hhits]
        by_cases hmode : settings.mode = .block
        · rw [if_pos hmode, if_pos ⟨hmode, hhits⟩]
          exact ⟨_, rfl⟩
        · rw [if_neg hmode, if_neg fun hboth ↦ hmode hboth.1]
          rfl
    · simp only [action, isEmpty_counts_redacted]
      split
      · rfl
      · rfl

/-- With a panic the outcome depends on the limit. -/
theorem checkResponse_of_panics (h : g.Panics ctx text) : ∃ message, g.checkResponse ctx text =
    if g.inlineLimitBytes < text.utf8ByteSize then
      some (.error (.internal ("PII response guardrail task failed: " ++ message)))
    else none := by
  obtain ⟨settings, hsettings⟩ := Option.isSome_iff_exists.1 h.1
  obtain ⟨message, hmessage⟩ := Option.isSome_iff_exists.1 h.2
  exact ⟨message, by rw [checkResponse, hsettings, hmessage]⟩

/-- Without a panic the limit is of no account. -/
theorem checkResponse_withLimit (h : ¬g.Panics ctx text) (limit : ℕ) :
    { g with inlineLimitBytes := limit }.checkResponse ctx text = g.checkResponse ctx text := by
  have hscan : { g with inlineLimitBytes := limit }.scanSettings ctx text =
      g.scanSettings ctx text := rfl
  rcases hsettings : g.scanSettings ctx text with - | settings
  · rw [checkResponse, checkResponse, hscan, hsettings]
  · rcases hpanics : g.panics text with - | message
    · rw [checkResponse, checkResponse, hscan, hsettings]
      simp only [hpanics]
      rfl
    · exact absurd ⟨by rw [hsettings]; rfl, by rw [hpanics]; rfl⟩ h

/-- A text that is scanned is not empty. -/
theorem utf8ByteSize_pos_of_panics (h : g.Panics ctx text) : 0 < text.utf8ByteSize := by
  obtain ⟨settings, hsettings⟩ := Option.isSome_iff_exists.1 h.1
  obtain ⟨-, hscans⟩ := Option.filter_eq_some_iff.1 hsettings
  have hne : ¬text.isEmpty := by
    intro hempty
    rw [hempty] at hscans
    cases hscans
  rw [Nat.pos_iff_ne_zero]
  intro hzero
  exact hne (beq_iff_eq.2 hzero)

end PiiResponseGuardrail

end Himadri
