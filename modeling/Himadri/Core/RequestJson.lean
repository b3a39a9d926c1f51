import Himadri.Core.Alike

/-!
# Chat requests in JSON

The derived `Deserialize` and `Serialize` of `ChatCompletionRequest` and of its parts. A struct is
read from an object or, by the places of its fields, from an array; only the request itself, which
keeps the members that are none of its fields, is an object alone. A unit variant is its name or an
object of its name and `null`, and the tag of a content part may also be the variant's number.

A part is written back as it came when it is an object without other members (`codec_message`,
`codec_tool`).
-/

namespace Himadri

open Serde

/-! ### Deserializing -/

/-- `Role`, by its name. -/
def roleOfName : String → Option Role
  | "system" => some .system
  | "user" => some .user
  | "assistant" => some .assistant
  | "tool" => some .tool
  | _ => none

/-- `Role`. -/
def decodeRole : Json → Option Role
  | .string s => roleOfName s
  | .object [(s, .null)] => roleOfName s
  | _ => none

/-- `FunctionCall`: the name and the arguments. -/
def decodeFunctionCall (v : Json) : Option (String × String) := do
  guard (v.elements.length ≤ 2)
  let name ← structField v 0 "name" none none string
  let arguments ← structField v 1 "arguments" none none string
  return (name, arguments)

/-- `ToolCall`. -/
def decodeToolCall (v : Json) : Option ToolCall := do
  guard (v.elements.length ≤ 3)
  let id ← structField v 0 "id" none none string
  let toolType ← structField v 1 "type" none none string
  let function ← structField v 2 "function" none none decodeFunctionCall
  return { id, toolType, functionName := function.1, arguments := function.2 }

/-- `ImageUrlDetail`: the URL and the detail. -/
def decodeImageUrlDetail (v : Json) : Option (String × Option String) := do
  guard (v.elements.length ≤ 2)
  let url ← structField v 0 "url" none none string
  let detail ← structField v 1 "detail" (some none) (some none) (option string)
  return (url, detail)

/-- The variants of `ContentPart`. -/
inductive ContentPartTag
  | text
  | imageUrl

/-- The tag of a `ContentPart`. -/
def decodeContentPartTag : Json → Option ContentPartTag
  | .string "text" => some .text
  | .string "image_url" => some .imageUrl
  | .number (.posInt 0) => some .text
  | .number (.posInt 1) => some .imageUrl
  | _ => none

/-- A tagged value without its tag. -/
def untagged (v : Json) : Json :=
  match v with
  | .object members => .object (members.filter (·.1 != "type"))
  | .array items => .array items.tail
  | v => v

/-- The fields of a variant of `ContentPart`. -/
def decodeContentPartFields (v : Json) : ContentPartTag → Option ContentPart
  | .text => do
    guard (v.elements.length ≤ 1)
    let text ← structField v 0 "text" none none string
    return .text text
  | .imageUrl => do
    guard (v.elements.length ≤ 1)
    let image ← structField v 0 "image_url" none none decodeImageUrlDetail
    return .imageUrl image.1 image.2

/-- `ContentPart`. -/
def decodeContentPart (v : Json) : Option ContentPart := do
  let tag ← structField v 0 "type" none none decodeContentPartTag
  decodeContentPartFields (untagged v) tag

/-- `MessageContent`: a string, or else an array of parts. -/
def decodeMessageContent (v : Json) : Option MessageContent :=
  ((string v).map .text).or ((array decodeContentPart v).map .parts)

/-- `Message`. -/
def decodeMessage (v : Json) : Option Message := do
  guard (v.elements.length ≤ 5)
  let role ← structField v 0 "role" none none decodeRole
  let content ← structField v 1 "content" (some none) none (option decodeMessageContent)
  let name ← structField v 2 "name" (some none) none (option string)
  let toolCalls ← structField v 3 "tool_calls" (some none) none (option (array decodeToolCall))
  let toolCallId ← structField v 4 "tool_call_id" (some none) none (option string)
  return { role, content, name, toolCalls, toolCallId }

/-- `ToolFunction`: the name, the description and the parameters. -/
def decodeToolFunction (v : Json) : Option (String × Option String × Option Json) := do
  guard (v.elements.length ≤ 3)
  let name ← structField v 0 "name" none none string
  let description ← structField v 1 "description" (some none) (some none) (option string)
  let parameters ← structField v 2 "parameters" (some none) (some none) (option value)
  return (name, description, parameters)

/-- `Tool`. -/
def decodeTool (v : Json) : Option Tool := do
  guard (v.elements.length ≤ 2)
  let toolType ← structField v 0 "type" (some "function") (some "function") string
  let function ← structField v 1 "function" none none decodeToolFunction
  return { toolType, functionName := function.1, description := function.2.1,
           parameters := function.2.2 }

/-- The names of the fields of `ChatCompletionRequest`. -/
def requestFields : List String :=
  ["model", "messages", "stream", "temperature", "top_p", "max_tokens", "stop", "presence_penalty",
    "frequency_penalty", "user", "tools", "tool_choice"]

/-- The members that are no fields: `#[serde(flatten)]`. -/
def extraOf (members : List (String × Json)) : KeyMap String Json :=
  KeyMap.empty.insertAll (members.filter (·.1 ∉ requestFields))

/-- `ChatCompletionRequest`, of the members of an object. -/
def decodeRequest (members : List (String × Json)) : Option ChatCompletionRequest := do
  let v : Json := .object members
  let model ← structField v 0 "model" none none string
  let messages ← structField v 1 "messages" none none (array decodeMessage)
  let stream ← structField v 2 "stream" (some false) none bool
  let temperature ← structField v 3 "temperature" (some none) none (option f64)
  let topP ← structField v 4 "top_p" (some none) none (option f64)
  let maxTokens ← structField v 5 "max_tokens" (some none) none (option (unsigned UInt32.size))
  let stop ← structField v 6 "stop" (some none) none (option (array string))
  let presencePenalty ← structField v 7 "presence_penalty" (some none) none (option f64)
  let frequencyPenalty ← structField v 8 "frequency_penalty" (some none) none (option f64)
  let user ← structField v 9 "user" (some none) none (option string)
  let tools ← structField v 10 "tools" (some none) none (option (array decodeTool))
  let toolChoice ← structField v 11 "tool_choice" (some none) none (option value)
  return { model, messages, stream, temperature, topP, maxTokens, stop, presencePenalty,
           frequencyPenalty, user, tools, toolChoice, extra := extraOf members }

/-- A decoded request has the fields of the client's object, and what is left of it. -/
theorem decodeRequest_eq_some {members : List (String × Json)} {r : ChatCompletionRequest}
    (h : decodeRequest members = some r) :
    let v : Json := .object members
    structField v 0 "model" none none string = some r.model ∧
    structField v 1 "messages" none none (array decodeMessage) = some r.messages ∧
    structField v 3 "temperature" (some none) none (option f64) = some r.temperature ∧
    structField v 4 "top_p" (some none) none (option f64) = some r.topP ∧
    structField v 5 "max_tokens" (some none) none (option (unsigned UInt32.size)) =
      some r.maxTokens ∧
    structField v 6 "stop" (some none) none (option (array string)) = some r.stop ∧
    structField v 7 "presence_penalty" (some none) none (option f64) = some r.presencePenalty ∧
    structField v 8 "frequency_penalty" (some none) none (option f64) = some r.frequencyPenalty ∧
    structField v 9 "user" (some none) none (option string) = some r.user ∧
    structField v 10 "tools" (some none) none (option (array decodeTool)) = some r.tools ∧
    structField v 11 "tool_choice" (some none) none (option value) = some r.toolChoice ∧
    r.extra = extraOf members := by
  intro v
  rw [decodeRequest] at h
  obtain ⟨model, hmodel, h⟩ := Option.bind_eq_some_iff.1 h
  obtain ⟨messages, hmessages, h⟩ := Option.bind_eq_some_iff.1 h
  obtain ⟨_, -, h⟩ := Option.bind_eq_some_iff.1 h
  obtain ⟨temperature, htemperature, h⟩ := Option.bind_eq_some_iff.1 h
  obtain ⟨topP, htopP, h⟩ := Option.bind_eq_some_iff.1 h
  obtain ⟨maxTokens, hmaxTokens, h⟩ := Option.bind_eq_some_iff.1 h
  obtain ⟨stop, hstop, h⟩ := Option.bind_eq_some_iff.1 h
  obtain ⟨presencePenalty, hpresence, h⟩ := Option.bind_eq_some_iff.1 h
  obtain ⟨frequencyPenalty, hfrequency, h⟩ := Option.bind_eq_some_iff.1 h
  obtain ⟨user, huser, h⟩ := Option.bind_eq_some_iff.1 h
  obtain ⟨tools, htools, h⟩ := Option.bind_eq_some_iff.1 h
  obtain ⟨toolChoice, hchoice, h⟩ := Option.bind_eq_some_iff.1 h
  obtain rfl := Option.some_inj.1 h
  exact ⟨hmodel, hmessages, htemperature, htopP, hmaxTokens, hstop, hpresence, hfrequency, huser,
    htools, hchoice, rfl⟩

/-! ### Serializing -/

/-- `Role`. -/
def Role.json (r : Role) : Json := .string r.lowercase

/-- `FunctionCall`. -/
def functionCallJson (f : String × String) : Json :=
  .record [("name", some (.string f.1)), ("arguments", some (.string f.2))]

/-- `ToolCall`. -/
def ToolCall.json (c : ToolCall) : Json :=
  .record [("id", some (.string c.id)), ("type", some (.string c.toolType)),
    ("function", some (functionCallJson (c.functionName, c.arguments)))]

/-- `ImageUrlDetail`: the detail is not skipped. -/
def imageUrlDetailJson (d : String × Option String) : Json :=
  .record [("url", some (.string d.1)), ("detail", some (.ofOption d.2))]

/-- `ContentPart`. -/
def ContentPart.json : ContentPart → Json
  | .text s => .record [("type", some (.string "text")), ("text", some (.string s))]
  | .imageUrl url detail =>
    .record [("type", some (.string "image_url")),
      ("image_url", some (imageUrlDetailJson (url, detail)))]

/-- `MessageContent`. -/
def MessageContent.json : MessageContent → Json
  | .text s => .string s
  | .parts ps => Json.list ContentPart.json ps

/-- `Message`. -/
def Message.json (m : Message) : Json :=
  .record [("role", some m.role.json), ("content", m.content.map MessageContent.json),
    ("name", m.name.map .string), ("tool_calls", m.toolCalls.map (Json.list ToolCall.json)),
    ("tool_call_id", m.toolCallId.map .string)]

/-- `ToolFunction`. -/
def toolFunctionJson (f : String × Option String × Option Json) : Json :=
  .record [("name", some (.string f.1)), ("description", f.2.1.map .string), ("parameters", f.2.2)]

/-- `Tool`. -/
def Tool.json (t : Tool) : Json :=
  .record [("type", some (.string t.toolType)),
    ("function", some (toolFunctionJson (t.functionName, t.description, t.parameters)))]

/-- A number of type `f32`. -/
def floatJson (q : ℚ) : Json := .number (.float q)

/-- The fields of a request, in their order. -/
def ChatCompletionRequest.fields (r : ChatCompletionRequest) : List (String × Option Json) :=
  [("model", some (.string r.model)), ("messages", some (Json.list Message.json r.messages)),
    ("stream", some (.bool r.stream)), ("temperature", r.temperature.map floatJson),
    ("top_p", r.topP.map floatJson), ("max_tokens", r.maxTokens.map Json.nat),
    ("stop", r.stop.map (Json.list .string)), ("presence_penalty", r.presencePenalty.map floatJson),
    ("frequency_penalty", r.frequencyPenalty.map floatJson), ("user", r.user.map .string),
    ("tools", r.tools.map (Json.list Tool.json)), ("tool_choice", r.toolChoice)]

/-- `serde_json::to_value`: the members of the flattened map come after the fields, each over a
member of its name. -/
def ChatCompletionRequest.toValue (r : ChatCompletionRequest) : KeyMap String Json where
  get name := (r.extra.get name).or ((Json.record r.fields).find name)

/-! ### What is written back -/

/-- A function call with nothing but its fields. -/
def PlainFunctionCall (v : Json) : Prop := v.Closed ["name", "arguments"]

/-- A tool call with nothing but its fields. -/
def PlainToolCall (v : Json) : Prop :=
  v.Closed ["id", "type", "function"] ∧ PlainFunctionCall (v.get "function")

/-- An image with nothing but its fields. -/
def PlainImageUrlDetail (v : Json) : Prop := v.Closed ["url", "detail"]

/-- A content part with its tag by name and nothing but the fields of its variant. -/
def PlainContentPart (v : Json) : Prop :=
  (v.get "type" = .string "text" ∧ v.Closed ["type", "text"]) ∨
    (v.get "type" = .string "image_url" ∧ v.Closed ["type", "image_url"] ∧
      PlainImageUrlDetail (v.get "image_url"))

/-- A message with its role as a string and nothing but its fields, of parts that are so too. -/
def PlainMessage (v : Json) : Prop :=
  v.Closed ["role", "content", "name", "tool_calls", "tool_call_id"] ∧
    (v.get "role").asStr.isSome ∧
    (∀ part ∈ (v.get "content").elements, PlainContentPart part) ∧
    ∀ call ∈ (v.get "tool_calls").elements, PlainToolCall call

/-- A function with nothing but its fields. -/
def PlainToolFunction (v : Json) : Prop := v.Closed ["name", "description", "parameters"]

/-- A tool that names its type, with nothing but its fields. -/
def PlainTool (v : Json) : Prop :=
  v.Closed ["type", "function"] ∧ v.get "type" ≠ .null ∧ PlainToolFunction (v.get "function")

section Codec

theorem codec_role : Codec decodeRole Role.json fun v ↦ v.asStr.isSome := by
  intro v r h
  have hname : ∀ s, roleOfName s = some r → r.lowercase = s := by
    intro s hs
    rw [roleOfName.eq_def] at hs
    split at hs
    · cases hs; rfl
    · cases hs; rfl
    · cases hs; rfl
    · cases hs; rfl
    · cases hs
  rw [decodeRole.eq_def] at h
  split at h
  · next s =>
    rw [Role.json, hname s h]
    exact iff_of_true (.refl _) rfl
  · next s =>
    refine iff_of_false (fun halike ↦ ?_) (fun hsome ↦ by cases hsome)
    have hshape := halike []
    cases hshape
  · cases h

theorem codec_functionCall : Codec decodeFunctionCall functionCallJson PlainFunctionCall := by
  intro v f h
  simp only [decodeFunctionCall, Option.bind_eq_bind, Option.bind_eq_some_iff] at h
  obtain ⟨-, -, name, hname, arguments, harguments, h⟩ := h
  obtain rfl := Option.some_inj.1 h
  refine (Json.alike_record_iff ["name", "arguments"] rfl (by decide)).trans ?_
  refine and_iff_left_of_imp fun hclosed ↦ ?_
  have hn := Codec.string.requiredField hclosed.1 hname
  have ha := Codec.string.requiredField hclosed.1 harguments
  simp only [List.forall_mem_cons, Option.getD_some]
  exact ⟨hn.2 trivial, ha.2 trivial, fun _ h ↦ by cases h⟩

theorem codec_toolCall : Codec decodeToolCall ToolCall.json PlainToolCall := by
  intro v c h
  simp only [decodeToolCall, Option.bind_eq_bind, Option.bind_eq_some_iff] at h
  obtain ⟨-, -, id, hid, toolType, htype, function, hfunction, h⟩ := h
  obtain rfl := Option.some_inj.1 h
  refine (Json.alike_record_iff ["id", "type", "function"] rfl (by decide)).trans ?_
  refine and_congr_right fun hclosed ↦ ?_
  have hi := Codec.string.requiredField hclosed.1 hid
  have ht := Codec.string.requiredField hclosed.1 htype
  have hf := codec_functionCall.requiredField hclosed.1 hfunction
  simp only [List.forall_mem_cons, Option.getD_some, hi, ht, hf, true_and]
  exact and_iff_left fun _ h ↦ by cases h

theorem codec_imageUrlDetail :
    Codec decodeImageUrlDetail imageUrlDetailJson PlainImageUrlDetail := by
  intro v d h
  simp only [decodeImageUrlDetail, Option.bind_eq_bind, Option.bind_eq_some_iff] at h
  obtain ⟨-, -, url, hurl, detail, hdetail, h⟩ := h
  obtain rfl := Option.some_inj.1 h
  refine (Json.alike_record_iff ["url", "detail"] rfl (by decide)).trans ?_
  refine and_iff_left_of_imp fun hclosed ↦ ?_
  have hu := Codec.string.requiredField hclosed.1 hurl
  have hd := Codec.string.optionField hclosed.1 hdetail
  have hwritten : Json.ofOption detail = (detail.map .string).getD .null := by
    cases detail with
    | none => rfl
    | some s => rfl
  simp only [List.forall_mem_cons, Option.getD_some, hwritten]
  exact ⟨hu.2 trivial, hd.2 fun _ ↦ trivial, fun _ h ↦ by cases h⟩

/-- The fields of a variant are none of them the tag. -/
theorem get_untagged (v : Json) {name : String} (hname : name ≠ "type") :
    (untagged v).get name = v.get name := by
  cases v with
  | object members =>
    rw [untagged, Json.get, Json.get, Json.find, Json.find, Serde.member, Serde.member,
      List.find?_filter]
    have hpred : (fun m : String × Json ↦ decide ((m.1 != "type") = true ∧ (m.1 == name) = true)) =
        fun m ↦ m.1 == name := by
      funext m
      by_cases hm : m.1 = name
      · simp [hm, hname]
      · simp [hm]
    rw [hpred]
  | null => rfl
  | bool b => rfl
  | number n => rfl
  | string s => rfl
  | array items => rfl

theorem codec_contentPart : Codec decodeContentPart ContentPart.json PlainContentPart := by
  intro v p h
  simp only [decodeContentPart, Option.bind_eq_bind, Option.bind_eq_some_iff] at h
  obtain ⟨tag, htag, h⟩ := h
  by_cases hobject : v.asObject.isSome
  · have hrest : (untagged v).asObject.isSome := by
      cases v with
      | object members => rfl
      | null => cases hobject
      | bool b => cases hobject
      | number n => cases hobject
      | string s => cases hobject
      | array items => cases hobject
    have htype := Serde.decode_get hobject htag
    cases tag with
    | text =>
      simp only [decodeContentPartFields, Option.bind_eq_bind, Option.bind_eq_some_iff] at h
      obtain ⟨-, -, s, hs, h⟩ := h
      obtain rfl := Option.some_inj.1 h
      have himage : v.get "type" ≠ .string "image_url" := fun himage ↦ by
        rw [himage] at htype
        cases htype
      have htext := Codec.string.requiredField hrest hs
      rw [get_untagged v (by decide)] at htext
      refine (Json.alike_record_iff ["type", "text"] rfl (by decide)).trans ?_
      simp only [List.forall_mem_cons, Option.getD_some, htext, Json.alike_string_iff,
        PlainContentPart, himage, false_and, or_false, true_and]
      rw [and_comm]
      exact and_congr_left fun _ ↦ and_iff_left fun _ h ↦ by cases h
    | imageUrl =>
      simp only [decodeContentPartFields, Option.bind_eq_bind, Option.bind_eq_some_iff] at h
      obtain ⟨-, -, image, himage, h⟩ := h
      obtain rfl := Option.some_inj.1 h
      have htext : v.get "type" ≠ .string "text" := fun htext ↦ by
        rw [htext] at htype
        cases htype
      have hdetail := codec_imageUrlDetail.requiredField hrest himage
      rw [get_untagged v (by decide)] at hdetail
      refine (Json.alike_record_iff ["type", "image_url"] rfl (by decide)).trans ?_
      simp only [List.forall_mem_cons, Option.getD_some, Json.alike_string_iff,
        PlainContentPart, htext, false_and, false_or, hdetail]
      constructor
      · rintro ⟨hclosed, htype, himage, -⟩
        exact ⟨htype, hclosed, himage⟩
      · rintro ⟨htype, hclosed, himage⟩
        exact ⟨hclosed, htype, himage, fun _ h ↦ by cases h⟩
  · -- an array of a tag and of fields is written back as an object
    refine iff_of_false (fun halike ↦ ?_) (fun hplain ↦ ?_)
    · cases p with
      | text s => exact hobject (Json.isSome_asObject_of_alike halike)
      | imageUrl url detail => exact hobject (Json.isSome_asObject_of_alike halike)
    · rcases hplain with ⟨-, hclosed⟩ | ⟨-, hclosed, -⟩
      · exact hobject hclosed.1
      · exact hobject hclosed.1

theorem codec_messageContent :
    Codec decodeMessageContent MessageContent.json fun v ↦
      ∀ part ∈ v.elements, PlainContentPart part := by
  intro v c h
  cases v with
  | string s =>
    obtain rfl := Option.some_inj.1 h
    exact iff_of_true (.refl _) fun _ hpart ↦ absurd hpart List.not_mem_nil
  | array items =>
    change ((Serde.array decodeContentPart (.array items)).map MessageContent.parts) = some c at h
    obtain ⟨ps, hps, rfl⟩ := Option.map_eq_some_iff.1 h
    exact codec_contentPart.array _ _ hps
  | null => cases h
  | bool b => cases h
  | number n => cases h
  | object members => cases h

theorem codec_message : Codec decodeMessage Message.json PlainMessage := by
  intro v m h
  simp only [decodeMessage, Option.bind_eq_bind, Option.bind_eq_some_iff] at h
  obtain ⟨-, -, role, hrole, content, hcontent, name, hname, toolCalls, hcalls, toolCallId, hid, h⟩ :=
    h
  obtain rfl := Option.some_inj.1 h
  refine (Json.alike_record_iff ["role", "content", "name", "tool_calls", "tool_call_id"] rfl
    (by decide)).trans ?_
  refine and_congr_right fun hclosed ↦ ?_
  have hr := codec_role.requiredField hclosed.1 hrole
  have hc := codec_messageContent.optionField hclosed.1 hcontent
  have hn := Codec.string.optionField hclosed.1 hname
  have ht := codec_toolCall.array.optionField hclosed.1 hcalls
  have hi := Codec.string.optionField hclosed.1 hid
  simp only [List.forall_mem_cons, Option.getD_some, hr, hc, hn, ht, hi,
    Json.forall_elements_iff]
  constructor
  · rintro ⟨hrole, hcontent, -, hcalls, -, -⟩
    exact ⟨hrole, hcontent, hcalls⟩
  · rintro ⟨hrole, hcontent, hcalls⟩
    exact ⟨hrole, hcontent, fun _ ↦ trivial, hcalls, fun _ ↦ trivial, fun _ h ↦ by cases h⟩

theorem codec_toolFunction : Codec decodeToolFunction toolFunctionJson PlainToolFunction := by
  intro v f h
  simp only [decodeToolFunction, Option.bind_eq_bind, Option.bind_eq_some_iff] at h
  obtain ⟨-, -, name, hname, description, hdescription, parameters, hparameters, h⟩ := h
  obtain rfl := Option.some_inj.1 h
  refine (Json.alike_record_iff ["name", "description", "parameters"] rfl (by decide)).trans ?_
  refine and_iff_left_of_imp fun hclosed ↦ ?_
  have hn := Codec.string.requiredField hclosed.1 hname
  have hd := Codec.string.optionField hclosed.1 hdescription
  have hp := Codec.value.optionField hclosed.1 hparameters
  rw [Option.map_id, id] at hp
  simp only [List.forall_mem_cons, Option.getD_some]
  exact ⟨hn.2 trivial, hd.2 fun _ ↦ trivial, hp.2 fun _ ↦ trivial, fun _ h ↦ by cases h⟩

theorem codec_tool : Codec decodeTool Tool.json PlainTool := by
  intro v t h
  simp only [decodeTool, Option.bind_eq_bind, Option.bind_eq_some_iff] at h
  obtain ⟨-, -, toolType, htype, function, hfunction, h⟩ := h
  obtain rfl := Option.some_inj.1 h
  refine (Json.alike_record_iff ["type", "function"] rfl (by decide)).trans ?_
  refine and_congr_right fun hclosed ↦ ?_
  -- the default is written where the client named no type
  have hnamed : Codec Serde.string .string fun v ↦ v ≠ .null := by
    intro v s h
    refine iff_of_true ((Codec.string v s h).2 trivial) fun hnull ↦ ?_
    rw [hnull] at h
    cases h
  have ht := hnamed.structField hclosed.1 (fun s _ ↦ iff_of_false (fun halike ↦ by
    cases Json.alike_string_iff.1 halike) fun hne ↦ hne rfl) htype
  have hf := codec_toolFunction.requiredField hclosed.1 hfunction
  simp only [List.forall_mem_cons, Option.getD_some, ht, hf]
  exact and_congr_right fun _ ↦ and_iff_left fun _ h ↦ by cases h

end Codec

end Himadri
