import Himadri.Core.RequestJson

/-!
# Requests to compatible providers

`build_request_body` of an OpenAI-compatible provider writes the decoded request back. What the
client sends beyond the fields is kept where `ChatCompletionRequest` collects it, in its flattened
map, and nowhere below: a message, a content part, a tool or a function loses every member that is
no field of its struct, and a tool without a type is given one (`buildRequestBody_keeps_iff`).
-/

namespace Himadri

namespace Compatible

/-- `build_request_body`. -/
def buildRequestBody (request : ChatCompletionRequest) (stream : Bool) : KeyMap String Json :=
  let body := request.toValue.insert "stream" (.bool stream)
  if stream then body.insert "stream_options" (.object [("include_usage", .bool true)]) else body

/-- The members of the client's object at every depth, and no others, but for `stream`,
`stream_options` and what is `null`. -/
def Keeps (client : Json.Map) (body : KeyMap String Json) : Prop :=
  ∀ name, name ≠ "stream" → name ≠ "stream_options" →
    ((Json.object client.members).get name).Alike ((body.get name).getD .null)

/-- Messages and tools with nothing that their structs do not have. -/
def Plain (client : Json.Map) : Prop :=
  (∀ m ∈ ((Json.object client.members).get "messages").elements, PlainMessage m) ∧
    ∀ t ∈ ((Json.object client.members).get "tools").elements, PlainTool t

variable {client : Json.Map} {r : ChatCompletionRequest} {stream : Bool} {name : String}

theorem get_buildRequestBody (hstream : name ≠ "stream") (hoptions : name ≠ "stream_options") :
    (buildRequestBody r stream).get name = r.toValue.get name := by
  have hbody : (r.toValue.insert "stream" (.bool stream)).get name = r.toValue.get name :=
    KeyMap.get_insert_of_ne hstream
  rw [buildRequestBody]
  split
  · exact (KeyMap.get_insert_of_ne hoptions).trans hbody
  · exact hbody

theorem member_of_mem {members : List (String × Json)} (hnodup : (members.map Prod.fst).Nodup)
    {m : String × Json} (hm : m ∈ members) : Serde.member members m.1 = some m.2 := by
  induction members with
  | nil => exact absurd hm List.not_mem_nil
  | cons m' members ih =>
    obtain ⟨n, v⟩ := m'
    rw [List.map_cons, List.nodup_cons] at hnodup
    rw [member_cons]
    rcases List.mem_cons.1 hm with rfl | hlater
    · exact if_pos rfl
    · rw [if_neg fun heq ↦ hnodup.1 (List.mem_map.2 ⟨m, hlater, heq.symm⟩)]
      exact ih hnodup.2 hlater

theorem member_eq_none {members : List (String × Json)} (hname : name ∉ members.map Prod.fst) :
    Serde.member members name = none := by
  rw [Serde.member, Option.map_eq_none_iff, List.find?_eq_none]
  intro m hm heq
  exact hname (beq_iff_eq.1 heq ▸ List.mem_map_of_mem hm)

/-- The flattened map has the members that are no fields. -/
theorem get_extraOf (client : Json.Map) (name : String) :
    (extraOf client.members).get name =
      if name ∈ requestFields then none else Serde.member client.members name := by
  by_cases hname : name ∈ (client.members.filter (·.1 ∉ requestFields)).map Prod.fst
  · obtain ⟨v, hv, hget⟩ := KeyMap.get_insertAll_of_mem (m := .empty) hname
    obtain ⟨hmem, hfield⟩ := List.mem_filter.1 hv
    rw [if_neg (of_decide_eq_true hfield), member_of_mem client.distinct hmem]
    exact hget
  · rw [extraOf, KeyMap.get_insertAll_of_notMem hname, KeyMap.get_empty]
    split
    · rfl
    · next hfield =>
      refine (member_eq_none fun hmem ↦ hname ?_).symm
      obtain ⟨m, hm, rfl⟩ := List.mem_map.1 hmem
      exact List.mem_map_of_mem (List.mem_filter.2 ⟨hm, decide_eq_true hfield⟩)

/-- What is no field is kept; the fields are compared one by one. -/
theorem keeps_iff (h : decodeRequest client.members = some r) :
    Keeps client (buildRequestBody r stream) ↔
      ∀ f ∈ r.fields, f.1 ≠ "stream" →
        ((Json.object client.members).get f.1).Alike (f.2.getD .null) := by
  have hnames : r.fields.map Prod.fst = requestFields := rfl
  have hnodup : (r.fields.map Prod.fst).Nodup := by
    rw [hnames]
    decide
  have hget (name : String) : ((r.toValue.get name).getD .null) =
      if name ∈ requestFields then (Json.record r.fields).get name
      else (Json.object client.members).get name := by
    show ((r.extra.get name).or ((Json.record r.fields).find name)).getD .null = _
    obtain ⟨-, -, -, -, -, -, -, -, -, -, -, hextra⟩ := decodeRequest_eq_some h
    rw [hextra, get_extraOf]
    split
    · rfl
    · next hname =>
      have hnone : (Json.record r.fields).get name = .null :=
        Json.get_record_of_notMem (hnames ▸ hname)
      rcases hmember : Serde.member client.members name with - | v
      · rw [Json.get, Json.find, hmember]
        exact hnone
      · rw [Json.get, Json.find, hmember]
        rfl
  constructor
  · intro hkeeps f hf hstream
    have hname : f.1 ∈ requestFields := hnames ▸ List.mem_map_of_mem hf
    have hoptions : f.1 ≠ "stream_options" := fun hoptions ↦ by
      rw [hoptions] at hname
      revert hname
      decide
    have halike := hkeeps f.1 hstream hoptions
    rw [get_buildRequestBody hstream hoptions, hget, if_pos hname,
      Json.get_record_of_mem hnodup hf] at halike
    exact halike
  · intro hfields name hstream hoptions
    rw [get_buildRequestBody hstream hoptions, hget]
    split
    · next hname =>
      rw [← hnames] at hname
      obtain ⟨f, hf, rfl⟩ := List.mem_map.1 hname
      rw [Json.get_record_of_mem hnodup hf]
      exact hfields f hf hstream
    · exact .refl _

/-- The body keeps the client's JSON exactly when its messages and tools have nothing that their
structs do not have. -/
theorem buildRequestBody_keeps_iff (h : decodeRequest client.members = some r) (stream : Bool) :
    Keeps client (buildRequestBody r stream) ↔ Plain client := by
  rw [keeps_iff h]
  obtain ⟨hmodel, hmessages, htemperature, htopP, hmaxTokens, hstop, hpresence, hfrequency, huser,
    htools, hchoice, -⟩ := decodeRequest_eq_some h
  have hobject : (Json.object client.members).asObject.isSome := rfl
  have hmodelAlike := Codec.string.requiredField hobject hmodel
  have hmessagesAlike := codec_message.array.requiredField hobject hmessages
  have htemperatureAlike := Codec.f64.optionField hobject htemperature
  have htopPAlike := Codec.f64.optionField hobject htopP
  have hmaxTokensAlike := (Codec.unsigned _).optionField hobject hmaxTokens
  have hstopAlike := Codec.string.array.optionField hobject hstop
  have hpresenceAlike := Codec.f64.optionField hobject hpresence
  have hfrequencyAlike := Codec.f64.optionField hobject hfrequency
  have huserAlike := Codec.string.optionField hobject huser
  have htoolsAlike := codec_tool.array.optionField hobject htools
  have hchoiceAlike := Codec.value.optionField hobject hchoice
  rw [Option.map_id, id] at hchoiceAlike
  simp only [ChatCompletionRequest.fields, List.forall_mem_cons, Option.getD_some]
  constructor
  · rintro ⟨-, hm, -, -, -, -, -, -, -, -, ht, -⟩
    exact ⟨hmessagesAlike.1 (hm (by decide)),
      Json.forall_elements_iff.1 (htoolsAlike.1 (ht (by decide)))⟩
  · rintro ⟨hm, ht⟩
    exact ⟨fun _ ↦ hmodelAlike.2 trivial, fun _ ↦ hmessagesAlike.2 hm, fun hne ↦ absurd rfl hne,
      fun _ ↦ htemperatureAlike.2 fun _ ↦ trivial, fun _ ↦ htopPAlike.2 fun _ ↦ trivial,
      fun _ ↦ hmaxTokensAlike.2 fun _ ↦ trivial, fun _ ↦ hstopAlike.2 fun _ _ _ ↦ trivial,
      fun _ ↦ hpresenceAlike.2 fun _ ↦ trivial, fun _ ↦ hfrequencyAlike.2 fun _ ↦ trivial,
      fun _ ↦ huserAlike.2 fun _ ↦ trivial, fun _ ↦ htoolsAlike.2 fun _ ↦ ht,
      fun _ ↦ hchoiceAlike.2 fun _ ↦ trivial, fun _ h ↦ absurd h List.not_mem_nil⟩

/-- A request of one greeting, with a parameter that is no field. -/
def greeting : Json.Map where
  members :=
    [("model", .string "gpt-4o"),
      ("messages", .array [.object [("role", .string "user"), ("content", .string "hi")]]),
      ("seed", .nat 42)]
  distinct := by decide

theorem greeting_kept : ∃ r, decodeRequest greeting.members = some r ∧
    Keeps greeting (buildRequestBody r true) := by
  refine ⟨{ ChatCompletionRequest.ofMessages "gpt-4o" [.user "hi"] with
    extra := extraOf greeting.members }, rfl, ?_⟩
  refine (buildRequestBody_keeps_iff rfl true).2 ⟨fun m hm ↦ ?_, fun t ht ↦ ?_⟩
  · obtain rfl := List.mem_singleton.1 hm
    refine ⟨⟨rfl, fun name hname ↦ ?_⟩, rfl, fun _ h ↦ absurd h List.not_mem_nil,
      fun _ h ↦ absurd h List.not_mem_nil⟩
    rw [List.mem_cons, List.mem_cons, not_or, not_or] at hname
    rw [Json.get_cons, if_neg fun h ↦ hname.1 h.symm, Json.get_cons,
      if_neg fun h ↦ hname.2.1 h.symm]
    rfl
  · exact absurd ht List.not_mem_nil

/-- A request with a tool whose schema is to be followed strictly. -/
def strictTool : Json.Map where
  members :=
    [("model", .string "gpt-4o"), ("messages", .array []),
      ("tools", .array [.object [("type", .string "function"),
        ("function", .object [("name", .string "get_weather"), ("strict", .bool true)])]])]
  distinct := by decide

/-- A member of a function that is no field of `ToolFunction` is not sent. -/
theorem strict_lost : ∃ r, decodeRequest strictTool.members = some r ∧
    ¬Keeps strictTool (buildRequestBody r false) := by
  refine ⟨{ ChatCompletionRequest.ofMessages "gpt-4o" [] with
    tools := some [⟨"function", "get_weather", none, none⟩]
    extra := extraOf strictTool.members }, rfl, fun hkeeps ↦ ?_⟩
  have hshape := hkeeps "tools" (by decide) (by decide)
    [.element 0, .member "function", .member "strict"]
  exact absurd hshape (by decide +kernel)

end Compatible

end Himadri
