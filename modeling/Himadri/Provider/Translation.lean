import Himadri.Provider.Gemini
import Mathlib.Data.List.Basic
import Mathlib.Data.List.Induction

/-!
# What the translations of a request keep

The conversation of a chat request is the text of its system messages, the text parts of the others,
the tool calls of the assistant, and the results that answer a call. Read in the formats of
Anthropic and Gemini, the bodies built of it contain all of these in their order exactly if there
are no calls and no results, and all system text is in the one message that the translation takes
(`translation_keeps_iff`).
-/

namespace Himadri

/-! ### The conversation -/

namespace Message

variable (m : Message)

/-- The text parts of a message. -/
def textParts : List String :=
  match m.content with
  | none => []
  | some (.text s) => [s]
  | some (.parts parts) => parts.filterMap fun
    | .text s => some s
    | .imageUrl _ _ => none

/-- The text of a message. -/
def said : String := String.join m.textParts

/-- The message is a system message. -/
def isSystem : Bool := m.role == .system

/-- The message has content. -/
def hasContent : Bool := m.content.isSome

/-- The text of a message whose content is plain text. -/
def plainText : String := (m.content.bind Anthropic.asText).getD ""

theorem said_eq : (m.content.map (·.flatText)).getD "" = m.said := by
  rw [said, textParts]
  rcases m.content with - | ⟨s | parts⟩
  · rfl
  · show s = String.join [s]
    rw [String.join_cons, String.join_nil, String.append_empty]
  · rfl

theorem said_of_not_hasContent (h : ¬m.hasContent) : m.said = "" := by
  rw [hasContent, Option.not_isSome_iff_eq_none] at h
  rw [said, textParts, h]
  rfl

theorem plainText_eq : m.plainText = m.said ∨ m.plainText = "" := by
  rw [plainText, ← said_eq]
  rcases m.content with - | ⟨s | parts⟩
  · exact .inr rfl
  · exact .inl rfl
  · exact .inr rfl

end Message

namespace ChatCompletionRequest

variable (r : ChatCompletionRequest)

/-- The system messages. -/
def systems : List Message := r.messages.filter Message.isSystem

/-- The other messages. -/
def others : List Message := r.messages.filter (·.role != .system)

/-- The text of every system message. -/
def systemTexts : List String := r.systems.map (·.said)

/-- The text parts of the other messages. -/
def texts : List String := r.others.flatMap (·.textParts)

/-- The tool calls of the assistant: the name and the arguments of each. -/
def calls : List (String × String) :=
  (r.messages.filter (·.role == .assistant)).flatMap fun m ↦
    (m.toolCalls.getD []).map fun c ↦ (c.functionName, c.arguments)

/-- The tool results, each with the call it answers. -/
def results : List (String × String) :=
  (r.messages.filter (·.role == .tool)).filterMap fun m ↦ m.toolCallId.map (·, m.said)

end ChatCompletionRequest

/-! ### What a body carries -/

/-- The texts are in the whole, one after the other. -/
def InOrder : List String → String → Prop
  | [], _ => True
  | t :: ts, whole => ∃ before after, whole = before ++ (t ++ after) ∧ InOrder ts after

/-- A conversation as a body carries it. -/
structure Carried where
  system : String
  text : String
  calls : List (String × String)
  results : List (String × String)

/-- The body carries the request's conversation. -/
structure Carried.Contains (c : Carried) (r : ChatCompletionRequest) : Prop where
  system : InOrder r.systemTexts c.system
  text : InOrder r.texts c.text
  calls : c.calls = r.calls
  results : c.results = r.results

namespace Anthropic

/-- The content blocks of a message of a body; a content that is a text has none. -/
def contentBlocks (m : Json) : List Json := (m.get "content").asArray.getD []

/-- What a body of Anthropic's format carries: a content is a text or blocks. -/
def carried (render : Json → String) (body : Json) : Carried where
  system := (body.get "system").asStr.getD ""
  text := String.join (((body.get "messages").asArray.getD []).map fun m ↦
    (m.get "content").asStr.getD (blocksText (contentBlocks m)))
  calls := (((body.get "messages").asArray.getD []).flatMap contentBlocks).filterMap fun b ↦
    if isKind "tool_use" b then some ((b.get "name").asStr.getD "", render (b.get "input"))
    else none
  results := (((body.get "messages").asArray.getD []).flatMap contentBlocks).filterMap fun b ↦
    if isKind "tool_result" b then
      some ((b.get "tool_use_id").asStr.getD "", (b.get "content").asStr.getD "")
    else none

end Anthropic

namespace Gemini

/-- The parts of a content. -/
def contentParts (content : Json) : List Json := (content.get "parts").asArray.getD []

/-- What a body of Gemini's format carries. -/
def carried (render : Json → String) (body : Json) : Carried where
  system := partsText (contentParts (body.get "systemInstruction"))
  text := partsText (((body.get "contents").asArray.getD []).flatMap contentParts)
  calls := (((body.get "contents").asArray.getD []).flatMap contentParts).filterMap fun p ↦
    (p.find "functionCall").map fun c ↦ ((c.get "name").asStr.getD "", render (c.get "args"))
  results := (((body.get "contents").asArray.getD []).flatMap contentParts).filterMap fun p ↦
    (p.find "functionResponse").map fun c ↦
      ((c.get "id").asStr.getD "", render (c.get "response"))

end Gemini

/-! ### Texts in a whole -/

theorem inOrder_join (ts : List String) : InOrder ts (String.join ts) := by
  induction ts with
  | nil => exact trivial
  | cons t ts ih => exact ⟨"", String.join ts, by rw [String.join_cons, String.empty_append], ih⟩

theorem length_join_le {ts : List String} {whole : String} (h : InOrder ts whole) :
    (String.join ts).length ≤ whole.length := by
  induction ts generalizing whole with
  | nil => exact Nat.zero_le _
  | cons t ts ih =>
    obtain ⟨before, after, rfl, hrest⟩ := h
    have hlength := ih hrest
    rw [String.join_cons, String.length_append, String.length_append, String.length_append]
    omega

/-- A whole that is no longer than the texts is these texts run together. -/
theorem inOrder_iff_join {ts : List String} {whole : String}
    (hle : whole.length ≤ (String.join ts).length) :
    InOrder ts whole ↔ String.join ts = whole := by
  constructor
  · intro h
    induction ts generalizing whole with
    | nil =>
      rw [String.join_nil, String.length_empty, Nat.le_zero, String.length_eq_zero_iff] at hle
      exact hle.symm
    | cons t ts ih =>
      obtain ⟨before, after, rfl, hrest⟩ := h
      have hlength := length_join_le hrest
      rw [String.join_cons, String.length_append, String.length_append,
        String.length_append] at hle
      have hbefore : before = "" := String.length_eq_zero_iff.1 (by omega)
      rw [String.join_cons, ih (by omega) hrest, hbefore, String.empty_append]
  · rintro rfl
    exact inOrder_join ts

theorem join_eq_empty_iff {ts : List String} : String.join ts = "" ↔ ∀ t ∈ ts, t = "" := by
  induction ts with
  | nil => exact iff_of_true rfl fun _ h ↦ by cases h
  | cons t ts ih => rw [String.join_cons, String.append_eq_empty_iff, ih, List.forall_mem_cons]

/-- The texts run together are one of them, or none, exactly if the others are empty. -/
theorem join_eq_iff_alone {k l : List String} {t whole : String}
    (hwhole : whole = t ∨ whole = "") :
    String.join (k ++ t :: l) = whole ↔
      ((∀ s ∈ k, s = "") ∧ ∀ s ∈ l, s = "") ∧ t = whole := by
  rw [String.join_append, String.join_cons, ← join_eq_empty_iff, ← join_eq_empty_iff]
  constructor
  · intro h
    have hlength := congrArg String.length h
    rw [String.length_append, String.length_append] at hlength
    have hle : whole.length ≤ t.length := by
      rcases hwhole with rfl | rfl
      · exact Nat.le_refl _
      · exact Nat.zero_le _
    have hbefore : String.join k = "" := String.length_eq_zero_iff.1 (by omega)
    have hafter : String.join l = "" := String.length_eq_zero_iff.1 (by omega)
    rw [hbefore, hafter, String.empty_append, String.append_empty] at h
    exact ⟨⟨hbefore, hafter⟩, h⟩
  · rintro ⟨⟨hbefore, hafter⟩, rfl⟩
    rw [hbefore, hafter, String.empty_append, String.append_empty]

/-- The texts of messages run together are all their text parts run together. -/
theorem join_said (messages : List Message) :
    String.join (messages.map (·.said)) = String.join (messages.flatMap (·.textParts)) := by
  induction messages with
  | nil => rfl
  | cons m messages ih =>
    rw [List.map_cons, String.join_cons, ih, List.flatMap_cons, String.join_append, Message.said]

/-- Messages without content have no text. -/
theorem join_said_filter (messages : List Message) :
    String.join (messages.map (·.said)) =
      String.join ((messages.filter Message.hasContent).map (·.said)) := by
  induction messages with
  | nil => rfl
  | cons m messages ih =>
    rw [List.map_cons, String.join_cons, ih]
    by_cases hcontent : m.hasContent
    · rw [List.filter_cons_of_pos (p := Message.hasContent) hcontent, List.map_cons,
        String.join_cons]
    · rw [List.filter_cons_of_neg (p := Message.hasContent) hcontent,
        m.said_of_not_hasContent hcontent, String.empty_append]

/-- The texts that are not empty. -/
def spoken (ts : List String) : List String := ts.filter (· != "")

theorem join_spoken (ts : List String) : String.join (spoken ts) = String.join ts := by
  induction ts with
  | nil => rfl
  | cons t ts ih =>
    rw [String.join_cons, ← ih, spoken]
    by_cases ht : t = ""
    · rw [ht, String.empty_append]
      rfl
    · rw [List.filter_cons_of_pos (p := (· != "")) (bne_iff_ne.2 ht), String.join_cons, spoken]

/-- Where at most one text is not empty, it is all of them run together. -/
theorem spoken_of_length_le {ts : List String} (h : (spoken ts).length ≤ 1) :
    spoken ts = spoken [String.join ts] := by
  rw [← join_spoken]
  rcases hts : spoken ts with - | ⟨t, - | ⟨t', rest⟩⟩
  · rfl
  · have ht : t ≠ "" := by
      have hmem : t ∈ spoken ts := by
        rw [hts]
        exact List.mem_singleton_self t
      exact bne_iff_ne.1 (List.mem_filter.1 hmem).2
    rw [String.join_cons, String.join_nil, String.append_empty, spoken,
      List.filter_cons_of_pos (p := (· != "")) (bne_iff_ne.2 ht)]
    rfl
  · rw [hts] at h
    exact absurd h (by simp)

theorem spoken_eq_nil {ts : List String} (h : ∀ t ∈ ts, t = "") : spoken ts = [] :=
  List.filter_eq_nil_iff.2 fun t ht hne ↦ bne_iff_ne.1 hne (h t ht)

/-- Messages without content say nothing. -/
theorem spoken_said_filter (messages : List Message) :
    spoken (messages.map (·.said)) =
      spoken ((messages.filter Message.hasContent).map (·.said)) := by
  induction messages with
  | nil => rfl
  | cons m messages ih =>
    by_cases hcontent : m.hasContent
    · rw [List.filter_cons_of_pos (p := Message.hasContent) hcontent, List.map_cons, List.map_cons,
        spoken, List.filter_cons, ← spoken, ih, spoken, spoken, List.filter_cons]
    · rw [List.filter_cons_of_neg (p := Message.hasContent) hcontent, List.map_cons,
        m.said_of_not_hasContent hcontent, ← ih]
      rfl

theorem length_spoken_alone {k l : List String} {t : String}
    (hbefore : ∀ s ∈ k, s = "") (hafter : ∀ s ∈ l, s = "") :
    (spoken (k ++ t :: l)).length ≤ 1 := by
  have hfilter : spoken (k ++ t :: l) = spoken k ++ (spoken [t] ++ spoken l) := by
    rw [← List.singleton_append, spoken, List.filter_append, List.filter_append]
    rfl
  rw [hfilter, spoken_eq_nil hbefore, spoken_eq_nil hafter, List.append_nil, List.nil_append]
  exact List.length_filter_le _ _

/-- Two requests with one conversation. -/
structure SameConversation (r r' : ChatCompletionRequest) : Prop where
  systems : spoken r.systemTexts = spoken r'.systemTexts
  texts : spoken r.texts = spoken r'.texts
  calls : r.calls = r'.calls
  results : r.results = r'.results

/-- Every message other than a system message has one text part at most, or else empty ones. -/
def ChatCompletionRequest.OneText (r : ChatCompletionRequest) : Prop :=
  ∀ m ∈ r.others, (spoken m.textParts).length ≤ 1

theorem spoken_texts {r : ChatCompletionRequest} (h : r.OneText) :
    spoken r.texts = spoken (r.others.map (·.said)) := by
  rw [ChatCompletionRequest.OneText] at h
  rw [ChatCompletionRequest.texts]
  generalize r.others = others at h ⊢
  induction others with
  | nil => rfl
  | cons m others ih =>
    have hm := spoken_of_length_le (h m List.mem_cons_self)
    rw [List.flatMap_cons, List.map_cons, ← List.singleton_append, spoken, List.filter_append,
      ← spoken, hm, spoken, spoken, List.filter_append]
    exact congrArg _ (ih fun m' hm' ↦ h m' (List.mem_cons_of_mem m hm'))

/-! ### Anthropic -/

namespace Anthropic

variable (render : Json → String) (r : ChatCompletionRequest) (stream : Bool)

/-- The options of a body leave its other members. -/
theorem get_withTools {body : Json} {name : String} (htools : "tools" ≠ name)
    (hchoice : "tool_choice" ≠ name) : (withTools body r).get name = body.get name := by
  rw [withTools]
  rcases r.tools with - | tools
  · rfl
  · exact (Json.get_setSome_of_ne hchoice _).trans (Json.get_set_of_ne htools)

theorem get_messages : (buildRequestBody r stream).get "messages" =
    .array (r.others.map messageJson) := by
  rw [buildRequestBody, get_withTools r (by decide) (by decide),
    Json.get_setSome_of_ne (by decide), Json.get_setSome_of_ne (by decide),
    Json.get_setSome_of_ne (by decide), Json.get_setSome_of_ne (by decide)]
  rfl

theorem get_system : (buildRequestBody r stream).get "system" =
    ((systemText r.messages).map Json.string).getD .null := by
  rw [buildRequestBody, get_withTools r (by decide) (by decide),
    Json.get_setSome_of_ne (by decide), Json.get_setSome_of_ne (by decide),
    Json.get_setSome_of_ne (by decide), Json.get_setSome_self rfl]

theorem contentBlocks_messageJson (m : Message) : contentBlocks (messageJson m) = [] := rfl

/-- What the body carries: of the system messages what `systemText` takes, and the text of the
others. -/
theorem carried_body : carried render (buildRequestBody r stream) =
    ⟨(systemText r.messages).getD "", String.join r.texts, [], []⟩ := by
  have hblocks : (r.others.map messageJson).flatMap contentBlocks = [] := by
    rw [List.flatMap_eq_nil_iff, List.forall_mem_map]
    exact fun m _ ↦ contentBlocks_messageJson m
  have htext : String.join ((r.others.map messageJson).map fun m ↦
      (m.get "content").asStr.getD (blocksText (contentBlocks m))) = String.join r.texts := by
    rw [List.map_map, ChatCompletionRequest.texts, ← join_said]
    exact congrArg String.join (List.map_congr_left fun m _ ↦ m.said_eq)
  have hsystem : (((systemText r.messages).map Json.string).getD .null).asStr =
      systemText r.messages := by
    rcases systemText r.messages with - | s
    · rfl
    · rfl
  rw [carried, get_messages, get_system, hsystem]
  show Carried.mk _ _ _ _ = _
  rw [Json.asArray, Option.getD_some, htext, hblocks]
  rfl

/-- The system messages with content. -/
def withContent (messages : List Message) : List Message :=
  (messages.filter Message.isSystem).filter Message.hasContent

theorem systemText_concat (messages : List Message) (m : Message) :
    systemText (messages ++ [m]) =
      if m.isSystem && m.hasContent then m.content.bind asText else systemText messages := by
  rw [systemText, List.foldl_append, List.foldl_cons, List.foldl_nil, ← systemText]
  obtain ⟨role, content, name, calls, id⟩ := m
  rcases role with - | - | - | -
  · rcases content with - | content
    · rfl
    · rfl
  · rfl
  · rfl
  · rfl

theorem withContent_concat (messages : List Message) (m : Message) :
    withContent (messages ++ [m]) =
      if m.isSystem && m.hasContent then withContent messages ++ [m] else withContent messages := by
  rw [withContent, List.filter_append, List.filter_append, ← withContent]
  by_cases hsystem : m.isSystem
  · rw [List.filter_cons_of_pos (p := Message.isSystem) hsystem, hsystem, Bool.true_and]
    by_cases hcontent : m.hasContent
    · rw [List.filter_nil, List.filter_cons_of_pos (p := Message.hasContent) hcontent,
        if_pos hcontent]
      rfl
    · rw [List.filter_nil, List.filter_cons_of_neg (p := Message.hasContent) hcontent,
        if_neg hcontent]
      exact List.append_nil _
  · rw [List.filter_cons_of_neg (p := Message.isSystem) hsystem, if_neg]
    · exact List.append_nil _
    · rw [Bool.and_eq_true]
      exact fun h ↦ hsystem h.1

theorem systemText_eq (messages : List Message) : (systemText messages).getD "" =
    ((withContent messages).getLast?.map (·.plainText)).getD "" := by
  induction messages using List.reverseRecOn with
  | nil => rfl
  | append_singleton messages m ih =>
    rw [systemText_concat, withContent_concat]
    split
    · rw [List.getLast?_concat]
      rfl
    · exact ih

/-- The system text is in the last system message with content alone, as plain text. -/
def SystemKept (r : ChatCompletionRequest) : Prop :=
  (∀ m ∈ (withContent r.messages).dropLast, m.said = "") ∧
    ∀ m ∈ (withContent r.messages).getLast?, m.said = m.plainText

theorem length_plainText_le (m : Message) : m.plainText.length ≤ m.said.length := by
  rcases m.plainText_eq with h | h
  · rw [h]
  · rw [h]
    exact Nat.zero_le _

theorem join_systemTexts :
    String.join r.systemTexts = String.join ((withContent r.messages).map (·.said)) :=
  join_said_filter r.systems

/-- The translation takes no more than there is. -/
theorem length_systemText_le :
    ((systemText r.messages).getD "").length ≤ (String.join r.systemTexts).length := by
  rw [systemText_eq, join_systemTexts]
  rcases List.eq_nil_or_concat' (withContent r.messages) with hnil | ⟨init, c, hlast⟩
  · rw [hnil]
    exact Nat.zero_le _
  · have hc := length_plainText_le c
    rw [hlast, List.getLast?_concat, List.map_append, String.join_append, List.map_singleton,
      String.join_cons, String.length_append, String.length_append, Option.map_some,
      Option.getD_some]
    omega

theorem system_iff : InOrder r.systemTexts ((systemText r.messages).getD "") ↔ SystemKept r := by
  rw [inOrder_iff_join (length_systemText_le r), join_systemTexts, systemText_eq, SystemKept]
  rcases List.eq_nil_or_concat' (withContent r.messages) with hnil | ⟨init, c, hlast⟩
  · rw [hnil]
    exact iff_of_true rfl ⟨fun m hm ↦ (by cases hm), fun m hm ↦ (by cases hm)⟩
  · rw [hlast, List.getLast?_concat, List.dropLast_concat, List.map_append, Option.map_some,
      Option.getD_some]
    refine (join_eq_iff_alone (l := []) c.plainText_eq).trans ?_
    rw [List.forall_mem_map]
    constructor
    · rintro ⟨⟨hinit, -⟩, hc⟩
      exact ⟨hinit, fun m hm ↦ by rw [← Option.some.inj hm]; exact hc⟩
    · rintro ⟨hinit, hc⟩
      exact ⟨⟨hinit, fun s hs ↦ (by cases hs)⟩, hc c rfl⟩

/-- The body carries the conversation exactly if no call and no result is in it, and the system text
is where the translation takes it from. -/
theorem contains_iff : (carried render (buildRequestBody r stream)).Contains r ↔
    SystemKept r ∧ r.calls = [] ∧ r.results = [] := by
  rw [carried_body]
  constructor
  · intro h
    exact ⟨(system_iff r).1 h.system, h.calls.symm, h.results.symm⟩
  · rintro ⟨hsystem, hcalls, hresults⟩
    exact ⟨(system_iff r).2 hsystem, inOrder_join r.texts, hcalls.symm, hresults.symm⟩

variable {r} {r' : ChatCompletionRequest} {stream}

/-- The system text that is kept is what the translation takes. -/
theorem spoken_systemTexts (h : SystemKept r) :
    spoken r.systemTexts = spoken [(systemText r.messages).getD ""] := by
  have hlength : (spoken r.systemTexts).length ≤ 1 := by
    rw [ChatCompletionRequest.systemTexts, spoken_said_filter]
    show (spoken ((withContent r.messages).map (·.said))).length ≤ 1
    rcases List.eq_nil_or_concat' (withContent r.messages) with hnil | ⟨init, c, hlast⟩
    · rw [hnil]
      exact Nat.zero_le 1
    · rw [SystemKept, hlast, List.dropLast_concat] at h
      rw [hlast, List.map_append]
      exact length_spoken_alone (List.forall_mem_map.2 h.1) fun s hs ↦ (by cases hs)
  rw [spoken_of_length_le hlength,
    (inOrder_iff_join (length_systemText_le r)).1 ((system_iff r).2 h)]

/-- Requests whose conversation is carried are told apart by their bodies. -/
theorem same_of_body_eq (hr : SystemKept r) (hr' : SystemKept r') (hone : r.OneText)
    (hone' : r'.OneText) (hcalls : r.calls = r'.calls) (hresults : r.results = r'.results)
    (hbody : buildRequestBody r stream = buildRequestBody r' stream) : SameConversation r r' := by
  have hcarried : carried (fun _ ↦ "") (buildRequestBody r stream) =
      carried (fun _ ↦ "") (buildRequestBody r' stream) := by rw [hbody]
  have hmessages : (buildRequestBody r stream).get "messages" =
      (buildRequestBody r' stream).get "messages" := by rw [hbody]
  rw [carried_body, carried_body, Carried.mk.injEq] at hcarried
  rw [get_messages, get_messages, Json.array.injEq] at hmessages
  have hsaid (r : ChatCompletionRequest) : (r.others.map messageJson).map
      (fun m ↦ (m.get "content").asStr.getD "") = r.others.map (·.said) := by
    rw [List.map_map]
    exact List.map_congr_left fun m _ ↦ m.said_eq
  refine ⟨?_, ?_, hcalls, hresults⟩
  · rw [spoken_systemTexts hr, spoken_systemTexts hr', hcarried.1]
  · rw [spoken_texts hone, spoken_texts hone', ← hsaid r, ← hsaid r', hmessages]

end Anthropic

/-! ### Gemini -/

namespace Gemini

variable (render : Json → String) (r : ChatCompletionRequest)

theorem get_withTools {body : Json} {name : String} (htools : "tools" ≠ name)
    (hconfig : "toolConfig" ≠ name) : (withTools body r).get name = body.get name := by
  rw [withTools]
  rcases r.tools with - | tools
  · rfl
  · exact (Json.get_setSome_of_ne hconfig _).trans (Json.get_set_of_ne htools)

theorem get_contents : (buildRequestBody r).get "contents" =
    .array (r.messages.filterMap contentJson) := by
  rw [buildRequestBody, get_withTools r (by decide) (by decide),
    Json.get_setSome_of_ne (by decide)]
  rfl

theorem get_systemInstruction : (buildRequestBody r).get "systemInstruction" =
    (systemInstruction r.messages).getD .null := by
  rw [buildRequestBody, get_withTools r (by decide) (by decide), Json.get_setSome_self rfl]

/-- The system text is in the first system message alone, as plain text. -/
def SystemKept (r : ChatCompletionRequest) : Prop :=
  (∀ m ∈ r.systems.tail, m.said = "") ∧ ∀ m ∈ r.systems.head?, m.said = m.plainText

/-- The part of a message. -/
def textPart (m : Message) : Json := .object [("text", .string m.said)]

/-- The parts of the contents: one of each message that is no system message and has content. -/
theorem parts_contents (messages : List Message) :
    (messages.filterMap contentJson).flatMap contentParts =
      ((messages.filter (·.role != .system)).filter Message.hasContent).map textPart := by
  induction messages with
  | nil => rfl
  | cons m messages ih =>
    obtain ⟨role, - | content, name, calls, id⟩ := m
    · rcases role with - | - | - | -
      · exact ih
      · exact ih
      · exact ih
      · exact ih
    · have hfirst (role : Role) : Json.object [("text", .string content.flatText)] =
          textPart ⟨role, some content, name, calls, id⟩ := by
        rw [textPart, ← Message.said_eq]
        rfl
      rcases role with - | - | - | -
      · exact ih
      · exact congrArg₂ List.cons (hfirst .user) ih
      · exact congrArg₂ List.cons (hfirst .assistant) ih
      · exact congrArg₂ List.cons (hfirst .tool) ih

/-- What the body carries: of the system messages the first one's plain text, and the text of the
others. -/
theorem carried_body : carried render (buildRequestBody r) =
    ⟨(r.systems.head?.map (·.plainText)).getD "", String.join r.texts, [], []⟩ := by
  have hparts : (r.messages.filterMap contentJson).flatMap contentParts =
      (r.others.filter Message.hasContent).map textPart := parts_contents r.messages
  have htext : partsText ((r.others.filter Message.hasContent).map textPart) =
      String.join r.texts := by
    rw [partsText, List.filterMap_map, ChatCompletionRequest.texts, ← join_said, join_said_filter]
    exact congrArg String.join (congrFun (List.filterMap_eq_map (f := Message.said))
      (r.others.filter Message.hasContent))
  have hfind (name : String) (hname : "text" ≠ name) :
      ∀ p ∈ (r.others.filter Message.hasContent).map textPart, p.find name = none := by
    refine List.forall_mem_map.2 fun m _ ↦ ?_
    rw [textPart, Json.find, member_cons, if_neg hname]
    rfl
  have hnone (name : String) (hname : "text" ≠ name) (f : Json → String × String) :
      ((r.others.filter Message.hasContent).map textPart).filterMap
        (fun p ↦ (p.find name).map f) = [] := by
    refine List.filterMap_eq_nil_iff.2 fun p hp ↦ ?_
    rw [hfind name hname p hp]
    rfl
  have hsystem : partsText (contentParts ((systemInstruction r.messages).getD .null)) =
      (r.systems.head?.map (·.plainText)).getD "" := by
    rw [systemInstruction, ← List.head?_filter, ChatCompletionRequest.systems]
    show partsText (contentParts ((((r.messages.filter Message.isSystem).head?.bind
      (·.content)).bind Anthropic.asText).map _ |>.getD .null)) = _
    rcases (r.messages.filter Message.isSystem).head? with - | c
    · rfl
    · rw [Option.map_some, Option.getD_some, Option.bind_some, Message.plainText]
      rcases c.content.bind Anthropic.asText with - | s
      · rfl
      · exact String.join_cons.trans String.append_empty
  rw [carried, get_contents, get_systemInstruction, hsystem]
  show Carried.mk _ _ _ _ = _
  rw [Json.asArray, Option.getD_some, hparts, htext, hnone "functionCall" (by decide),
    hnone "functionResponse" (by decide)]

theorem system_iff :
    InOrder r.systemTexts ((r.systems.head?.map (·.plainText)).getD "") ↔ SystemKept r := by
  rw [SystemKept, ChatCompletionRequest.systemTexts]
  rcases r.systems with - | ⟨c, rest⟩
  · exact iff_of_true trivial ⟨fun m hm ↦ (by cases hm), fun m hm ↦ (by cases hm)⟩
  · have hle : c.plainText.length ≤ (String.join ((c :: rest).map (·.said))).length := by
      have hc := Anthropic.length_plainText_le c
      rw [List.map_cons, String.join_cons, String.length_append]
      omega
    have halone := join_eq_iff_alone (k := []) (l := rest.map (·.said)) (t := c.said)
      c.plainText_eq
    rw [List.head?_cons, Option.map_some, Option.getD_some, inOrder_iff_join hle, List.map_cons]
    refine halone.trans ?_
    rw [List.forall_mem_map, List.tail_cons]
    constructor
    · rintro ⟨⟨-, hrest⟩, hc⟩
      exact ⟨hrest, fun m hm ↦ by rw [← Option.some.inj hm]; exact hc⟩
    · rintro ⟨hrest, hc⟩
      exact ⟨⟨fun s hs ↦ (by cases hs), hrest⟩, hc c rfl⟩

theorem contains_iff : (carried render (buildRequestBody r)).Contains r ↔
    SystemKept r ∧ r.calls = [] ∧ r.results = [] := by
  rw [carried_body]
  constructor
  · intro h
    exact ⟨(system_iff r).1 h.system, h.calls.symm, h.results.symm⟩
  · rintro ⟨hsystem, hcalls, hresults⟩
    exact ⟨(system_iff r).2 hsystem, inOrder_join r.texts, hcalls.symm, hresults.symm⟩

variable {r} {r' : ChatCompletionRequest}

theorem length_plainText_head_le :
    ((r.systems.head?.map (·.plainText)).getD "").length ≤ (String.join r.systemTexts).length := by
  rw [ChatCompletionRequest.systemTexts]
  rcases r.systems with - | ⟨c, rest⟩
  · exact Nat.zero_le _
  · have hc := Anthropic.length_plainText_le c
    rw [List.map_cons, String.join_cons, String.length_append, List.head?_cons, Option.map_some,
      Option.getD_some]
    omega

theorem spoken_systemTexts (h : SystemKept r) :
    spoken r.systemTexts = spoken [(r.systems.head?.map (·.plainText)).getD ""] := by
  have hlength : (spoken r.systemTexts).length ≤ 1 := by
    rw [SystemKept] at h
    rw [ChatCompletionRequest.systemTexts]
    rcases hsystems : r.systems with - | ⟨c, rest⟩
    · exact Nat.zero_le 1
    · rw [hsystems] at h
      exact length_spoken_alone (k := []) (fun s hs ↦ (by cases hs))
        (List.forall_mem_map.2 h.1)
  rw [spoken_of_length_le hlength,
    (inOrder_iff_join length_plainText_head_le).1 ((system_iff r).2 h)]

/-- Requests whose conversation is carried are told apart by their bodies. -/
theorem same_of_body_eq (hr : SystemKept r) (hr' : SystemKept r') (hone : r.OneText)
    (hone' : r'.OneText) (hcalls : r.calls = r'.calls) (hresults : r.results = r'.results)
    (hbody : buildRequestBody r = buildRequestBody r') : SameConversation r r' := by
  have hcarried : carried (fun _ ↦ "") (buildRequestBody r) =
      carried (fun _ ↦ "") (buildRequestBody r') := by rw [hbody]
  have hcontents : (buildRequestBody r).get "contents" = (buildRequestBody r').get "contents" := by
    rw [hbody]
  rw [carried_body, carried_body, Carried.mk.injEq] at hcarried
  rw [get_contents, get_contents, Json.array.injEq] at hcontents
  have hsaid (r : ChatCompletionRequest) :
      ((r.messages.filterMap contentJson).flatMap contentParts).filterMap Anthropic.textOf =
        (r.others.filter Message.hasContent).map (·.said) := by
    have hparts : (r.messages.filterMap contentJson).flatMap contentParts =
      (r.others.filter Message.hasContent).map textPart := parts_contents r.messages
    rw [hparts, List.filterMap_map]
    exact congrFun (List.filterMap_eq_map (f := Message.said)) (r.others.filter Message.hasContent)
  refine ⟨?_, ?_, hcalls, hresults⟩
  · rw [spoken_systemTexts hr, spoken_systemTexts hr', hcarried.1]
  · rw [spoken_texts hone, spoken_texts hone', spoken_said_filter r.others,
      spoken_said_filter r'.others, ← hsaid r, ← hsaid r', hcontents]

end Gemini

/-! ### Both translations -/

/-- A conversation with a tool: the assistant has called it, and its result answers the call. -/
def toolRequest (arguments : String) : ChatCompletionRequest :=
  .ofMessages "claude-3-5-sonnet-20241022"
    [.user "What time is it?",
      { role := .assistant
        content := none
        name := none
        toolCalls := some [⟨"call_1", "function", "get_time", arguments⟩]
        toolCallId := none }]

/-- Two requests with different calls and one body, of either provider. -/
theorem calls_lost :
    (toolRequest "\x7b\x7d").calls = [("get_time", "\x7b\x7d")] ∧
      (toolRequest "[]").calls = [("get_time", "[]")] ∧
      (∀ stream, Anthropic.buildRequestBody (toolRequest "\x7b\x7d") stream =
        Anthropic.buildRequestBody (toolRequest "[]") stream) ∧
      Gemini.buildRequestBody (toolRequest "\x7b\x7d") =
        Gemini.buildRequestBody (toolRequest "[]") ∧
      ¬∀ (render : Json → String) (r : ChatCompletionRequest) (stream : Bool),
        (Anthropic.carried render (Anthropic.buildRequestBody r stream)).Contains r ∧
          (Gemini.carried render (Gemini.buildRequestBody r)).Contains r := by
  refine ⟨rfl, rfl, fun stream ↦ rfl, rfl, fun h ↦ ?_⟩
  have hcalls := (h (fun _ ↦ "") (toolRequest "[]") false).1.calls
  rw [Anthropic.carried_body] at hcalls
  exact absurd hcalls (List.cons_ne_nil _ _).symm

/-- **A body carries the conversation** exactly if no tool is called and no result answers a call,
and all system text is in one message, as plain text: the last one with content for Anthropic, the
first for Gemini. Such requests with one text in each message are told apart by their bodies. -/
theorem translation_keeps_iff (render : Json → String) :
    (∀ r stream, (Anthropic.carried render (Anthropic.buildRequestBody r stream)).Contains r ↔
      Anthropic.SystemKept r ∧ r.calls = [] ∧ r.results = []) ∧
    (∀ r, (Gemini.carried render (Gemini.buildRequestBody r)).Contains r ↔
      Gemini.SystemKept r ∧ r.calls = [] ∧ r.results = []) ∧
    ∀ r r' : ChatCompletionRequest, r.calls = [] ∧ r.results = [] ∧ r.OneText →
      r'.calls = [] ∧ r'.results = [] ∧ r'.OneText →
      (Anthropic.SystemKept r → Anthropic.SystemKept r' → ∀ stream,
        Anthropic.buildRequestBody r stream = Anthropic.buildRequestBody r' stream →
          SameConversation r r') ∧
      (Gemini.SystemKept r → Gemini.SystemKept r' →
        Gemini.buildRequestBody r = Gemini.buildRequestBody r' → SameConversation r r') := by
  refine ⟨fun r stream ↦ Anthropic.contains_iff render r stream,
    fun r ↦ Gemini.contains_iff render r, fun r r' hr hr' ↦ ?_⟩
  obtain ⟨hcalls, hresults, hone⟩ := hr
  obtain ⟨hcalls', hresults', hone'⟩ := hr'
  exact ⟨fun hkept hkept' stream hbody ↦ Anthropic.same_of_body_eq hkept hkept' hone hone'
      (hcalls.trans hcalls'.symm) (hresults.trans hresults'.symm) hbody,
    fun hkept hkept' hbody ↦ Gemini.same_of_body_eq hkept hkept' hone hone'
      (hcalls.trans hcalls'.symm) (hresults.trans hresults'.symm) hbody⟩

end Himadri
