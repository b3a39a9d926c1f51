import Himadri.Core.ReadsBack
import Himadri.Core.RequestJson

/-!
# Chat responses in JSON

The derived `Deserialize` and `Serialize` of `ChatCompletionResponse` and of `StreamChunk`. Almost
every field has a default, so that nearly any object is a response; what is no field is dropped.

What is written reads back (`decodeResponse_json`, `decodeChunk_json`), as far as its numbers fit
the fields they are read into; and those of whatever was read do (`yields_response`,
`yields_chunk`).
-/

namespace Himadri

open Serde

/-! ### Deserializing -/

/-- `Usage`. -/
def decodeUsage (v : Json) : Option Usage := do
  guard (v.elements.length ≤ 3)
  let promptTokens ← structField v 0 "prompt_tokens" none none (unsigned UInt32.size)
  let completionTokens ← structField v 1 "completion_tokens" none none (unsigned UInt32.size)
  let totalTokens ← structField v 2 "total_tokens" none none (unsigned UInt32.size)
  return { promptTokens, completionTokens, totalTokens }

/-- `ResponseMessage`. -/
def decodeResponseMessage (v : Json) : Option ResponseMessage := do
  guard (v.elements.length ≤ 3)
  let role ← structField v 0 "role" (some .assistant) (some .assistant) decodeRole
  let content ← structField v 1 "content" (some none) none (option string)
  let toolCalls ← structField v 2 "tool_calls" (some none) none (option (array decodeToolCall))
  return { role, content, toolCalls }

/-- `Choice`. -/
def decodeChoice (v : Json) : Option Choice := do
  guard (v.elements.length ≤ 3)
  let index ← structField v 0 "index" (some 0) (some 0) (unsigned UInt32.size)
  let message ← structField v 1 "message" none none decodeResponseMessage
  let finishReason ← structField v 2 "finish_reason" (some none) none (option string)
  return { index, message, finishReason }

/-- `ChatCompletionResponse`. -/
def decodeResponse (v : Json) : Option ChatCompletionResponse := do
  guard (v.elements.length ≤ 7)
  let id ← structField v 0 "id" (some "") (some "") string
  let object ← structField v 1 "object" (some "") (some "") string
  let created ← structField v 2 "created" (some 0) (some 0) (unsigned UInt64.size)
  let model ← structField v 3 "model" (some "") (some "") string
  let choices ← structField v 4 "choices" (some []) (some []) (array decodeChoice)
  let usage ← structField v 5 "usage" (some none) none (option decodeUsage)
  let systemFingerprint ← structField v 6 "system_fingerprint" (some none) none (option string)
  return { id, object, created, model, choices, usage, systemFingerprint }

/-- `FunctionCallDelta`. -/
def decodeFunctionCallDelta (v : Json) : Option FunctionCallDelta := do
  guard (v.elements.length ≤ 2)
  let name ← structField v 0 "name" (some none) none (option string)
  let arguments ← structField v 1 "arguments" (some none) none (option string)
  return { name, arguments }

/-- `ToolCallDelta`. -/
def decodeToolCallDelta (v : Json) : Option ToolCallDelta := do
  guard (v.elements.length ≤ 4)
  let index ← structField v 0 "index" none none (unsigned UInt32.size)
  let id ← structField v 1 "id" (some none) none (option string)
  let toolType ← structField v 2 "type" (some none) none (option string)
  let function ← structField v 3 "function" (some none) none (option decodeFunctionCallDelta)
  return { index, id, toolType, function }

/-- `Delta`. -/
def decodeDelta (v : Json) : Option Delta := do
  guard (v.elements.length ≤ 3)
  let role ← structField v 0 "role" (some none) none (option decodeRole)
  let content ← structField v 1 "content" (some none) none (option string)
  let toolCalls ← structField v 2 "tool_calls" (some none) none
    (option (array decodeToolCallDelta))
  return { role, content, toolCalls }

/-- `StreamChoice`. -/
def decodeStreamChoice (v : Json) : Option StreamChoice := do
  guard (v.elements.length ≤ 3)
  let index ← structField v 0 "index" (some 0) (some 0) (unsigned UInt32.size)
  let delta ← structField v 1 "delta" none none decodeDelta
  let finishReason ← structField v 2 "finish_reason" (some none) none (option string)
  return { index, delta, finishReason }

/-- `StreamChunk`. -/
def decodeChunk (v : Json) : Option StreamChunk := do
  guard (v.elements.length ≤ 7)
  let id ← structField v 0 "id" (some "") (some "") string
  let object ← structField v 1 "object" (some "") (some "") string
  let created ← structField v 2 "created" (some 0) (some 0) (unsigned UInt64.size)
  let model ← structField v 3 "model" (some "") (some "") string
  let choices ← structField v 4 "choices" (some []) (some []) (array decodeStreamChoice)
  let usage ← structField v 5 "usage" (some none) none (option decodeUsage)
  let systemFingerprint ← structField v 6 "system_fingerprint" (some none) none (option string)
  return { id, object, created, model, choices, usage, systemFingerprint }

/-! ### Serializing -/

/-- `Usage`. -/
def Usage.json (u : Usage) : Json :=
  .record [("prompt_tokens", some (Json.nat u.promptTokens)),
    ("completion_tokens", some (Json.nat u.completionTokens)),
    ("total_tokens", some (Json.nat u.totalTokens))]

/-- `ResponseMessage`: the content is not skipped. -/
def ResponseMessage.json (m : ResponseMessage) : Json :=
  .record [("role", some m.role.json), ("content", some (orNull .string m.content)),
    ("tool_calls", m.toolCalls.map (Json.list ToolCall.json))]

/-- `Choice`. -/
def Choice.json (c : Choice) : Json :=
  .record [("index", some (Json.nat c.index)), ("message", some c.message.json),
    ("finish_reason", c.finishReason.map .string)]

/-- `ChatCompletionResponse`. -/
def ChatCompletionResponse.json (r : ChatCompletionResponse) : Json :=
  .record [("id", some (.string r.id)), ("object", some (.string r.object)),
    ("created", some (Json.nat r.created)), ("model", some (.string r.model)),
    ("choices", some (Json.list Choice.json r.choices)), ("usage", r.usage.map Usage.json),
    ("system_fingerprint", r.systemFingerprint.map .string)]

/-- `FunctionCallDelta`. -/
def FunctionCallDelta.json (f : FunctionCallDelta) : Json :=
  .record [("name", f.name.map .string), ("arguments", f.arguments.map .string)]

/-- `ToolCallDelta`. -/
def ToolCallDelta.json (c : ToolCallDelta) : Json :=
  .record [("index", some (Json.nat c.index)), ("id", c.id.map .string),
    ("type", c.toolType.map .string), ("function", c.function.map FunctionCallDelta.json)]

/-- `Delta`. -/
def Delta.json (d : Delta) : Json :=
  .record [("role", d.role.map Role.json), ("content", d.content.map .string),
    ("tool_calls", d.toolCalls.map (Json.list ToolCallDelta.json))]

/-- `StreamChoice`. -/
def StreamChoice.json (c : StreamChoice) : Json :=
  .record [("index", some (Json.nat c.index)), ("delta", some c.delta.json),
    ("finish_reason", c.finishReason.map .string)]

/-- `StreamChunk`. -/
def StreamChunk.json (c : StreamChunk) : Json :=
  .record [("id", some (.string c.id)), ("object", some (.string c.object)),
    ("created", some (Json.nat c.created)), ("model", some (.string c.model)),
    ("choices", some (Json.list StreamChoice.json c.choices)), ("usage", c.usage.map Usage.json),
    ("system_fingerprint", c.systemFingerprint.map .string)]

/-! ### Numbers that fit -/

/-- The counts are of type `u32`. -/
structure Usage.Fits (u : Usage) : Prop where
  prompt : u.promptTokens < UInt32.size
  completion : u.completionTokens < UInt32.size
  total : u.totalTokens < UInt32.size

/-- The numbers of the response are of the types of their fields. -/
structure ChatCompletionResponse.Fits (r : ChatCompletionResponse) : Prop where
  created : r.created < UInt64.size
  indices : ∀ c ∈ r.choices, c.index < UInt32.size
  usage : ∀ u ∈ r.usage, u.Fits

/-- The indices of its tool calls are of type `u32`. -/
def Delta.Fits (d : Delta) : Prop := ∀ calls ∈ d.toolCalls, ∀ c ∈ calls, c.index < UInt32.size

/-- The numbers of the chunk are of the types of their fields. -/
structure StreamChunk.Fits (c : StreamChunk) : Prop where
  created : c.created < UInt64.size
  choices : ∀ choice ∈ c.choices, choice.index < UInt32.size ∧ choice.delta.Fits
  usage : ∀ u ∈ c.usage, u.Fits

/-! ### Reading back -/

section ReadBack

theorem skipped_string {o : Option String} :
    (o.map Json.string).elim (some none) (option string) = some o :=
  option_skipped (fun _ _ ↦ rfl) string_ne_null

theorem decodeRole_json (r : Role) : decodeRole r.json = some r := by
  rcases r with _ | _ | _ | _ <;> rfl

theorem decodeFunctionCall_json (f : String × String) :
    decodeFunctionCall (functionCallJson f) = some f := by
  rw [decodeFunctionCall, functionCallJson]
  simp (disch := (simp only [List.map_cons, List.map_nil]; decide)) only [structField_record,
    List.lookup_cons, String.reduceBEq, BEq.rfl, Option.join_some, Option.elim_some]
  rfl

theorem decodeToolCall_json (c : ToolCall) : decodeToolCall c.json = some c := by
  rw [decodeToolCall, ToolCall.json]
  simp (disch := (simp only [List.map_cons, List.map_nil]; decide)) only [structField_record,
    List.lookup_cons, String.reduceBEq, BEq.rfl, Option.join_some, Option.elim_some,
    decodeFunctionCall_json]
  rfl

theorem decodeUsage_json {u : Usage} (h : u.Fits) : decodeUsage u.json = some u := by
  rw [decodeUsage, Usage.json]
  simp (disch := (simp only [List.map_cons, List.map_nil]; decide)) only [structField_record,
    List.lookup_cons, String.reduceBEq, BEq.rfl, Option.join_some, Option.elim_some,
    unsigned_nat h.prompt, unsigned_nat h.completion, unsigned_nat h.total]
  rfl

theorem skipped_usage {o : Option Usage} (h : ∀ u ∈ o, u.Fits) :
    (o.map Usage.json).elim (some none) (option decodeUsage) = some o :=
  option_skipped (fun u hu ↦ decodeUsage_json (h u hu)) fun _ ↦ record_ne_null _

theorem decodeResponseMessage_json (m : ResponseMessage) :
    decodeResponseMessage m.json = some m := by
  have hcalls : (m.toolCalls.map (Json.list ToolCall.json)).elim (some none)
      (option (array decodeToolCall)) = some m.toolCalls :=
    option_skipped (fun _ _ ↦ array_list fun c _ ↦ decodeToolCall_json c) list_ne_null
  rw [decodeResponseMessage, ResponseMessage.json]
  simp (disch := (simp only [List.map_cons, List.map_nil]; decide)) only [structField_record,
    List.lookup_cons, String.reduceBEq, BEq.rfl, Option.join_some, Option.elim_some,
    decodeRole_json, option_string, hcalls]
  rfl

theorem decodeChoice_json {c : Choice} (h : c.index < UInt32.size) :
    decodeChoice c.json = some c := by
  rw [decodeChoice, Choice.json]
  simp (disch := (simp only [List.map_cons, List.map_nil]; decide)) only [structField_record,
    List.lookup_cons, String.reduceBEq, BEq.rfl, Option.join_some, Option.elim_some,
    unsigned_nat h, decodeResponseMessage_json, skipped_string]
  rfl

/-- A response reads back. -/
theorem decodeResponse_json {r : ChatCompletionResponse} (h : r.Fits) :
    decodeResponse r.json = some r := by
  rw [decodeResponse, ChatCompletionResponse.json]
  simp (disch := (simp only [List.map_cons, List.map_nil]; decide)) only [structField_record,
    List.lookup_cons, String.reduceBEq, BEq.rfl, Option.join_some, Option.elim_some,
    unsigned_nat h.created, array_list fun c hc ↦ decodeChoice_json (h.indices c hc),
    skipped_usage h.usage, skipped_string]
  rfl

theorem decodeFunctionCallDelta_json (f : FunctionCallDelta) :
    decodeFunctionCallDelta f.json = some f := by
  rw [decodeFunctionCallDelta, FunctionCallDelta.json]
  simp (disch := (simp only [List.map_cons, List.map_nil]; decide)) only [structField_record,
    List.lookup_cons, String.reduceBEq, BEq.rfl, Option.join_some, skipped_string]
  rfl

theorem decodeToolCallDelta_json {c : ToolCallDelta} (h : c.index < UInt32.size) :
    decodeToolCallDelta c.json = some c := by
  have hfunction : (c.function.map FunctionCallDelta.json).elim (some none)
      (option decodeFunctionCallDelta) = some c.function :=
    option_skipped (fun f _ ↦ decodeFunctionCallDelta_json f) fun _ ↦ record_ne_null _
  rw [decodeToolCallDelta, ToolCallDelta.json]
  simp (disch := (simp only [List.map_cons, List.map_nil]; decide)) only [structField_record,
    List.lookup_cons, String.reduceBEq, BEq.rfl, Option.join_some, Option.elim_some,
    unsigned_nat h, skipped_string, hfunction]
  rfl

theorem decodeDelta_json {d : Delta} (h : d.Fits) : decodeDelta d.json = some d := by
  have hrole : (d.role.map Role.json).elim (some none) (option decodeRole) = some d.role :=
    option_skipped (fun r _ ↦ decodeRole_json r) fun _ ↦ string_ne_null _
  have hcalls : (d.toolCalls.map (Json.list ToolCallDelta.json)).elim (some none)
      (option (array decodeToolCallDelta)) = some d.toolCalls :=
    option_skipped (fun calls hcalls ↦ array_list fun c hc ↦
      decodeToolCallDelta_json (h calls hcalls c hc)) list_ne_null
  rw [decodeDelta, Delta.json]
  simp (disch := (simp only [List.map_cons, List.map_nil]; decide)) only [structField_record,
    List.lookup_cons, String.reduceBEq, BEq.rfl, Option.join_some, hrole, skipped_string, hcalls]
  rfl

theorem decodeStreamChoice_json {c : StreamChoice} (hindex : c.index < UInt32.size)
    (hdelta : c.delta.Fits) : decodeStreamChoice c.json = some c := by
  rw [decodeStreamChoice, StreamChoice.json]
  simp (disch := (simp only [List.map_cons, List.map_nil]; decide)) only [structField_record,
    List.lookup_cons, String.reduceBEq, BEq.rfl, Option.join_some, Option.elim_some,
    unsigned_nat hindex, decodeDelta_json hdelta, skipped_string]
  rfl

/-- A chunk reads back. -/
theorem decodeChunk_json {c : StreamChunk} (h : c.Fits) : decodeChunk c.json = some c := by
  have hchoices : array decodeStreamChoice (Json.list StreamChoice.json c.choices) =
      some c.choices :=
    array_list fun choice hchoice ↦
      decodeStreamChoice_json (h.choices choice hchoice).1 (h.choices choice hchoice).2
  rw [decodeChunk, StreamChunk.json]
  simp (disch := (simp only [List.map_cons, List.map_nil]; decide)) only [structField_record,
    List.lookup_cons, String.reduceBEq, BEq.rfl, Option.join_some, Option.elim_some,
    unsigned_nat h.created, hchoices, skipped_usage h.usage, skipped_string]
  rfl

end ReadBack

/-! ### What was read fits -/

section Fits

theorem yields_usage : Yields decodeUsage Usage.Fits := by
  intro v u h
  simp only [decodeUsage, Option.bind_eq_bind, Option.bind_eq_some_iff] at h
  obtain ⟨-, -, prompt, hprompt, completion, hcompletion, total, htotal, h⟩ := h
  obtain rfl := Option.some.inj h
  exact ⟨(yields_unsigned _).required hprompt, (yields_unsigned _).required hcompletion,
    (yields_unsigned _).required htotal⟩

theorem yields_choice : Yields decodeChoice (·.index < UInt32.size) := by
  intro v c h
  simp only [decodeChoice, Option.bind_eq_bind, Option.bind_eq_some_iff] at h
  obtain ⟨-, -, index, hindex, message, -, finishReason, -, h⟩ := h
  obtain rfl := Option.some.inj h
  exact (yields_unsigned _).field (by decide) hindex

theorem yields_response : Yields decodeResponse ChatCompletionResponse.Fits := by
  intro v r h
  simp only [decodeResponse, Option.bind_eq_bind, Option.bind_eq_some_iff] at h
  obtain ⟨-, -, id, -, object, -, created, hcreated, model, -, choices, hchoices, usage, husage,
    systemFingerprint, -, h⟩ := h
  obtain rfl := Option.some.inj h
  exact ⟨(yields_unsigned _).field (by decide) hcreated,
    yields_choice.array.field (fun _ hc ↦ absurd hc List.not_mem_nil) hchoices,
    yields_usage.option.optional (fun _ hu ↦ by cases hu) husage⟩

theorem yields_toolCallDelta : Yields decodeToolCallDelta (·.index < UInt32.size) := by
  intro v c h
  simp only [decodeToolCallDelta, Option.bind_eq_bind, Option.bind_eq_some_iff] at h
  obtain ⟨-, -, index, hindex, id, -, toolType, -, function, -, h⟩ := h
  obtain rfl := Option.some.inj h
  exact (yields_unsigned _).required hindex

theorem yields_delta : Yields decodeDelta Delta.Fits := by
  intro v d h
  simp only [decodeDelta, Option.bind_eq_bind, Option.bind_eq_some_iff] at h
  obtain ⟨-, -, role, -, content, -, toolCalls, hcalls, h⟩ := h
  obtain rfl := Option.some.inj h
  exact yields_toolCallDelta.array.option.optional (fun _ hcalls ↦ by cases hcalls) hcalls

theorem yields_streamChoice :
    Yields decodeStreamChoice fun c ↦ c.index < UInt32.size ∧ c.delta.Fits := by
  intro v c h
  simp only [decodeStreamChoice, Option.bind_eq_bind, Option.bind_eq_some_iff] at h
  obtain ⟨-, -, index, hindex, delta, hdelta, finishReason, -, h⟩ := h
  obtain rfl := Option.some.inj h
  exact ⟨(yields_unsigned _).field (by decide) hindex, yields_delta.required hdelta⟩

theorem yields_chunk : Yields decodeChunk StreamChunk.Fits := by
  intro v c h
  simp only [decodeChunk, Option.bind_eq_bind, Option.bind_eq_some_iff] at h
  obtain ⟨-, -, id, -, object, -, created, hcreated, model, -, choices, hchoices, usage, husage,
    systemFingerprint, -, h⟩ := h
  obtain rfl := Option.some.inj h
  exact ⟨(yields_unsigned _).field (by decide) hcreated,
    yields_streamChoice.array.field (fun _ hc ↦ absurd hc List.not_mem_nil) hchoices,
    yields_usage.option.optional (fun _ hu ↦ by cases hu) husage⟩

end Fits

end Himadri
