import Himadri.Core.Patterns
import Himadri.Core.Text
import Himadri.Gateway.Audit
import Himadri.Transition.System

/-!
# Redaction

The patterns of the audit redactor, each with its placeholder, and the text after the five passes.
The placeholders stand in brackets, which none of the patterns accepts, and none of them holds a
match (`apart_rules`): so the passes do not disturb each other. The audit log redacts what it
queues, where it keeps the content of requests at all.
-/

namespace Himadri

open Patterns

namespace Redactor

/-- A literal text. -/
def literal (text : String) : List (Run Char) := text.toList.map fun c ↦ .one (· == c)

/-- A literal text under `(?i)`, for letters that fold to ASCII letters only. -/
def literalIgnoringCase (text : String) : List (Run Char) :=
  text.toList.map fun c ↦ .one fun d ↦ d == c.toLower || d == c.toUpper

/-- `[a-zA-Z0-9]` and some more. -/
def alphanumericOr (more : String) (c : Char) : Bool := c.isAlphanum || more.toList.contains c

/-- The class of a bearer token. Under `(?i)` a class also holds what its letters fold with: for `s`
the long s, for `k` the Kelvin sign. -/
def bearerClass (c : Char) : Bool :=
  alphanumericOr "._~+/=-" c || c.toNat == 0x17F || c.toNat == 0x212A

/-- `[0-9A-Z]`. -/
def awsClass (c : Char) : Bool := c.isDigit || c.isUpper

/-- `jwt_regex`. -/
def jwtRegex : List (Run Char) :=
  literal "eyJ" ++ [.atLeast 1 (alphanumericOr "_-")] ++ literal ".eyJ" ++
    [.atLeast 1 (alphanumericOr "_-")] ++ literal "." ++ [.atLeast 1 (alphanumericOr "_-")]

/-- `bearer_regex`. -/
def bearerRegex : List (Run Char) :=
  literalIgnoringCase "bearer" ++ [.atLeast 1 Text.isWhitespace, .atLeast 16 bearerClass]

/-- `api_key_regex`. -/
def apiKeyRegex : List (Run Char) := literal "sk-" ++ [.atLeast 16 (alphanumericOr "_-")]

/-- `email_regex`. -/
def emailRegex : List (Run Char) :=
  [.atLeast 1 (alphanumericOr "._%+-")] ++ literal "@" ++ [.atLeast 1 (alphanumericOr ".-")] ++
    literal "." ++ [.atLeast 2 Char.isAlpha]

/-- `aws_key_regex`. -/
def awsKeyRegex : List (Run Char) := literal "AKIA" ++ [.exactly 16 awsClass]

/-- The regexes and their replacements, in the order of the passes. -/
def rules : List (Rule '[' ']') :=
  [⟨jwtRegex, "REDACTED_JWT".toList, by decide, by decide⟩,
    ⟨bearerRegex, "REDACTED_BEARER_TOKEN".toList, by decide, by decide⟩,
    ⟨apiKeyRegex, "REDACTED_API_KEY".toList, by decide, by decide⟩,
    ⟨emailRegex, "REDACTED_EMAIL".toList, by decide, by decide⟩,
    ⟨awsKeyRegex, "REDACTED_AWS_KEY".toList, by decide, by decide⟩]

/-- `Redactor::redact`. -/
def redact (input : String) : String := .ofList (replaceEach rules input.toList)

/-- No pattern matches in a placeholder. -/
theorem apart_rules : Apart rules := by
  have hfinds : ∀ rule ∈ rules, ∀ rule' ∈ rules, rule.finds rule'.placeholder = false := by
    decide +kernel
  exact fun rule hrule rule' hrule' ↦ Rule.clean_of_finds (hfinds rule hrule rule' hrule')

/-- No secret is found anywhere in the text. -/
def Clean (text : String) : Prop := ∀ rule ∈ rules, rule.Clean text.toList

theorem clean_redact (input : String) : Clean (redact input) := by
  rw [Clean, redact, String.toList_ofList]
  exact clean_replaceEach apart_rules input.toList

/-- No secret is left in a redacted text; redacting it again changes nothing; and it is the input
but for pieces that do not overlap, each a secret, with the placeholder of its pattern in its
place. -/
theorem redact_complete (input : String) :
    Clean (redact input) ∧ redact (redact input) = redact input ∧
      Replaced rules input.toList (redact input).toList := by
  refine ⟨clean_redact input, ?_, ?_⟩
  · have hagain := replaceEach_idempotent apart_rules input.toList
    rw [redact, redact, String.toList_ofList, hagain]
  · rw [redact, String.toList_ofList]
    exact replaced_replaceEach apart_rules input.toList

example : redact "Contact user@example.com for info" = "Contact [REDACTED_EMAIL] for info" := by
  decide +kernel

end Redactor

/-! ### The audit log -/

/-- `AuditEvent`: the fields that hold content, and all others. -/
structure AuditEvent (M : Type) where
  metadata : M
  messages : List AuditMessage
  response : Option String

/-- `AuditLog`, with the events in its queue. -/
structure AuditLog (M : Type) where
  redactPii : Bool
  captureContent : Bool
  queue : List (AuditEvent M)
  dropped : ℕ

/-- `AUDIT_CHANNEL_CAPACITY`. -/
def auditChannelCapacity : ℕ := 8192

/-- A call of `log`, or the sink receives an event. -/
inductive AuditOp (M : Type)
  | log (event : AuditEvent M)
  | receive

namespace AuditLog

variable {M : Type}

/-- `AuditLog::with_options`. -/
def withOptions (redactPii captureContent : Bool) : AuditLog M := ⟨redactPii, captureContent, [], 0⟩

/-- What `log` makes of an event before it queues it. -/
def prepare (log : AuditLog M) (event : AuditEvent M) : AuditEvent M :=
  if !log.captureContent then { event with messages := [], response := none }
  else if log.redactPii then
    { event with
      messages := event.messages.map fun m ↦ { m with content := Redactor.redact m.content }
      response := event.response.map Redactor.redact }
  else event

/-- `AuditLog::log` never waits: an event the queue has no room for is dropped, and counted. The
sink waits for an event. -/
def step? (log : AuditLog M) : AuditOp M → Option (AuditLog M)
  | .log event =>
    if log.queue.length < auditChannelCapacity then
      some { log with queue := log.queue ++ [log.prepare event] }
    else some { log with dropped := log.dropped + 1 }
  | .receive =>
    match log.queue with
    | [] => none
    | _ :: queue => some { log with queue }

/-- The runs of an audit log. -/
def runs (redactPii captureContent : Bool) : TransitionSystem (AuditLog M) (AuditOp M) :=
  .ofPartial (· = withOptions redactPii captureContent) step?

/-- No event in the queue holds content unless content is captured, or a secret unless redaction is
off. -/
structure Guarded (log : AuditLog M) : Prop where
  bounded : log.queue.length ≤ auditChannelCapacity
  stripped : log.captureContent = false → ∀ e ∈ log.queue, e.messages = [] ∧ e.response = none
  redacted : log.redactPii = true → ∀ e ∈ log.queue,
    (∀ m ∈ e.messages, Redactor.Clean m.content) ∧ ∀ text ∈ e.response, Redactor.Clean text

theorem stripped_prepare {log : AuditLog M} (h : log.captureContent = false)
    (event : AuditEvent M) :
    (log.prepare event).messages = [] ∧ (log.prepare event).response = none := by
  rw [prepare, h]
  exact ⟨rfl, rfl⟩

theorem redacted_prepare {log : AuditLog M} (h : log.redactPii = true) (event : AuditEvent M) :
    (∀ m ∈ (log.prepare event).messages, Redactor.Clean m.content) ∧
      ∀ text ∈ (log.prepare event).response, Redactor.Clean text := by
  rcases hcapture : log.captureContent with _ | _
  · obtain ⟨hmessages, hresponse⟩ := stripped_prepare hcapture event
    rw [hmessages, hresponse]
    exact ⟨fun m hm ↦ absurd hm List.not_mem_nil, fun text htext ↦ by cases htext⟩
  · rw [prepare, hcapture, h]
    constructor
    · intro m hm
      obtain ⟨m', -, rfl⟩ := List.mem_map.1 hm
      exact Redactor.clean_redact m'.content
    · intro text htext
      obtain ⟨text', -, rfl⟩ := Option.map_eq_some_iff.1 htext
      exact Redactor.clean_redact text'

theorem Guarded.step {log log' : AuditLog M} {op : AuditOp M} (h : log.Guarded)
    (hstep : log.step? op = some log') : log'.Guarded := by
  rcases op with event | _
  · rw [step?] at hstep
    split_ifs at hstep with hroom
    · obtain rfl := Option.some.inj hstep
      have hmem {P : AuditEvent M → Prop} (hqueue : ∀ e ∈ log.queue, P e)
          (hnew : P (log.prepare event)) : ∀ e ∈ log.queue ++ [log.prepare event], P e := by
        rw [List.forall_mem_append]
        exact ⟨hqueue, List.forall_mem_singleton.2 hnew⟩
      refine ⟨?_, fun hoff ↦ ?_, fun hon ↦ ?_⟩
      · show (log.queue ++ [log.prepare event]).length ≤ auditChannelCapacity
        rw [List.length_append, List.length_singleton]
        exact hroom
      · exact hmem (h.stripped hoff) (stripped_prepare hoff event)
      · exact hmem (h.redacted hon) (redacted_prepare hon event)
    · obtain rfl := Option.some.inj hstep
      exact ⟨h.bounded, h.stripped, h.redacted⟩
  · rcases hqueue : log.queue with _ | ⟨first, queue⟩
    · rw [step?, hqueue] at hstep
      cases hstep
    · rw [step?, hqueue] at hstep
      obtain rfl := Option.some.inj hstep
      have hmem {e : AuditEvent M} (he : e ∈ queue) : e ∈ log.queue :=
        hqueue ▸ List.mem_cons_of_mem first he
      refine ⟨?_, fun hoff e he ↦ h.stripped hoff e (hmem he),
        fun hon e he ↦ h.redacted hon e (hmem he)⟩
      have hbounded := h.bounded
      rw [hqueue, List.length_cons] at hbounded
      exact (Nat.le_succ _).trans hbounded

/-- Whatever is logged and received, in whatever order, the queue is guarded. -/
theorem guarded_invariant (redactPii captureContent : Bool) :
    (runs redactPii captureContent).Invariant (Guarded (M := M)) where
  init log hlog := by
    obtain rfl : log = withOptions redactPii captureContent := hlog
    exact ⟨Nat.zero_le _, fun _ e he ↦ absurd he List.not_mem_nil,
      fun _ e he ↦ absurd he List.not_mem_nil⟩
  step _ _ _ h hstep := h.step hstep

end AuditLog

end Himadri
