import Himadri.Provider.Transcripts

/-!
# Gemini's answers in one piece and as a stream

The answers of Gemini, as a body and as the events that deliver it. The stream loses every call,
reads the first part of an event only, and takes no usage from an event without candidates
(`Gemini.readAlike_iff`). With Anthropic's answers, `streamed_as_whole_iff` says when what is
streamed is what is returned in one piece.
-/

namespace Himadri

namespace Gemini

/-! ### Gemini's deliveries -/

/-- A part of a content. -/
inductive Part
  | text (s : String)
  | functionCall (name : String) (args : Json)

namespace Part

/-- The part as JSON. -/
def json : Part → Json
  | .text s => .object [("text", .string s)]
  | .functionCall name args =>
    .object [("functionCall", .object [("name", .string name), ("args", args)])]

/-- The text of the part. -/
def said : Part → String
  | .text s => s
  | .functionCall _ _ => ""

/-- The call of the part. -/
def call : Part → Option (String × Json)
  | .text _ => none
  | .functionCall name args => some (name, args)

end Part

/-- `usageMetadata`. -/
structure Counts where
  prompt : ℕ
  candidates : ℕ
  total : ℕ

namespace Counts

/-- The counts as JSON. -/
def json (c : Counts) : Json :=
  .object [("promptTokenCount", .nat c.prompt), ("candidatesTokenCount", .nat c.candidates),
    ("totalTokenCount", .nat c.total)]

/-- The counts as the provider takes them. -/
def usage (c : Counts) : Usage :=
  ⟨c.prompt % UInt32.size, c.candidates % UInt32.size, c.total % UInt32.size⟩

end Counts

/-- A candidate, or what an event brings of it. -/
structure Candidate where
  parts : List Part
  finishReason : Option String

/-- The candidate as JSON. -/
def Candidate.json (c : Candidate) : Json :=
  .object [("content", .object [("role", .string "model"),
      ("parts", .array (c.parts.map (·.json)))]),
    ("finishReason", .ofOption c.finishReason)]

/-- A response or an event: one candidate at most, and usage or none. -/
structure Event where
  candidate : Option Candidate
  counts : Option Counts

/-- The response or the event as JSON. -/
def Event.json (e : Event) : Json :=
  .object ((e.candidate.toList.map fun c ↦ ("candidates", .array [c.json])) ++
    e.counts.toList.map fun c ↦ ("usageMetadata", c.json))

/-- The parts that events bring. -/
def partsOf (events : List Event) : List Part :=
  (events.filterMap (·.candidate)).flatMap (·.parts)

/-- The events deliver an answer: its text, its calls, and as the last there are its finish reason
and its usage. -/
structure Delivers (events : List Event) (c : Candidate) (counts : Option Counts) : Prop where
  text : String.join ((partsOf events).map (·.said)) = String.join (c.parts.map (·.said))
  calls : (partsOf events).filterMap (·.call) = c.parts.filterMap (·.call)
  finishReason : lastSome ((events.filterMap (·.candidate)).map (·.finishReason)) = c.finishReason
  counts : lastSome (events.map (·.counts)) = counts

/-! ### Gemini's response -/

theorem partsText_map (parts : List Part) :
    partsText (parts.map (·.json)) = String.join (parts.map (·.said)) := by
  rw [partsText]
  induction parts with
  | nil => rfl
  | cons part parts ih =>
    rw [List.map_cons, List.map_cons, String.join_cons, ← ih]
    rcases part with s | ⟨name, args⟩
    · exact String.join_cons
    · exact String.empty_append.symm

theorem partsCalls_map (env : ProviderEnv) (parts : List Part) :
    partsCalls env (parts.map (·.json)) = [] ↔ parts.filterMap (·.call) = [] := by
  rw [partsCalls, List.map_eq_nil_iff, List.zipIdx_eq_nil_iff, List.filterMap_eq_nil_iff,
    List.filterMap_eq_nil_iff, List.forall_mem_map]
  refine forall₂_congr fun part _ ↦ ?_
  rcases part with s | ⟨name, args⟩
  · exact iff_of_true rfl rfl
  · exact iff_of_false (fun h ↦ by cases h) fun h ↦ by cases h

theorem usageOf_json (counts : Option Counts) :
    ((counts.map Counts.json).getD Json.null).asObject.mapM usageOf =
      Except.ok (counts.map Counts.usage) := by
  rcases counts with - | c
  · rfl
  · rfl

theorem get_usageMetadata (e : Event) :
    e.json.get "usageMetadata" = (e.counts.map Counts.json).getD Json.null := by
  obtain ⟨- | c, - | counts⟩ := e
  · rfl
  · rfl
  · rfl
  · rfl

theorem asArray_candidates (e : Event) :
    (e.json.get "candidates").asArray = e.candidate.map fun c ↦ [c.json] := by
  obtain ⟨- | c, - | counts⟩ := e
  · rfl
  · rfl
  · rfl
  · rfl

/-- The reading of the response, up to the ids of its calls. -/
theorem parseResponse_body (env : ProviderEnv) (model : String) (c : Candidate)
    (counts : Option Counts) :
    ∃ r, parseResponse env (Event.json ⟨some c, counts⟩) model = .ok (.ok r) ∧
      r.reading = ⟨String.join (c.parts.map (·.said)), partsCalls env (c.parts.map (·.json)),
        c.finishReason.map mapFinishReason, counts.map (·.usage)⟩ := by
  have hfirst : firstCandidate (Event.json ⟨some c, counts⟩) = some c.json := by
    rw [firstCandidate, asArray_candidates]
    rfl
  rw [parseResponse, hfirst, get_usageMetadata, usageOf_json]
  refine ⟨_, rfl, ?_⟩
  have hcontent : ((some (partsText (c.parts.map (·.json)))).filter (!·.isEmpty)).getD "" =
      String.join (c.parts.map (·.said)) := by
    rw [Anthropic.getD_filter_isEmpty, partsText_map]
  have hcalls := Anthropic.getD_filter_isEmpty_list (partsCalls env (c.parts.map (·.json)))
  have hfinish : (Json.ofOption c.finishReason).asStr.map mapFinishReason =
      c.finishReason.map mapFinishReason := by rw [Anthropic.asStr_ofOption]
  show Reading.mk _ _ _ _ = Reading.mk _ _ _ _
  exact congr (congr (congrArg₂ Reading.mk hcontent hcalls) hfinish) rfl

/-! ### Gemini's stream -/

/-- The text of the first part. -/
def Candidate.firstText (c : Candidate) : Option String :=
  (c.parts.head?.map (·.json)).bind Anthropic.textOf

/-- The chunk of an event. -/
def chunk (env : ProviderEnv) (model : String) (c : Candidate) (counts : Option Counts) :
    StreamChunk where
  id := "gemini-" ++ env.uuid 0
  object := "chat.completion.chunk"
  created := env.now
  model
  choices := [⟨0, ⟨none, c.firstText, none⟩, c.finishReason.map mapFinishReason⟩]
  usage := counts.map (·.usage)
  systemFingerprint := none

/-- The chunks of the events: one of each with a candidate. -/
def chunks (env : ProviderEnv) (model : String) (events : List Event) : List StreamChunk :=
  events.flatMap fun e ↦ (e.candidate.map (chunk env model · e.counts)).toList

theorem parseStreamChunk_single (env : ProviderEnv) (model : String) (e : Event) (c : Candidate) :
    parseStreamChunk env (singleChunk e.json c.json) model =
      .ok (.ok (chunk env model c e.counts)) := by
  have husage : ((singleChunk e.json c.json).get "usageMetadata").asObject.mapM usageOf =
      .ok (e.counts.map Counts.usage) := by
    show (e.json.get "usageMetadata").asObject.mapM usageOf = _
    rw [get_usageMetadata, usageOf_json]
  have hdelta : ((firstCandidate (singleChunk e.json c.json)).map candidateDelta).getD
      (none, none) = (c.firstText, c.finishReason.map mapFinishReason) := by
    show (((c.parts.map (·.json)).head?).bind Anthropic.textOf,
      (Json.ofOption c.finishReason).asStr.map mapFinishReason) = _
    rw [List.head?_map, Anthropic.asStr_ofOption]
    rfl
  rw [parseStreamChunk, hdelta, husage]
  rfl

theorem eventChunks_json (env : ProviderEnv) (model : String) (e : Event) :
    eventChunks env model e.json =
      .ok ((e.candidate.map (chunk env model · e.counts)).toList.map .ok) := by
  rw [eventChunks, asArray_candidates]
  rcases hcandidate : e.candidate with - | c
  · rfl
  · rw [Option.map_some, Option.getD_some, List.mapM_cons, parseStreamChunk_single]
    rfl

theorem streamChunks_json (env : ProviderEnv) (model : String) (events : List Event) :
    streamChunks env model (events.map (·.json)) = .ok ((chunks env model events).map .ok) := by
  have hmap : (events.map (·.json)).mapM (eventChunks env model) =
      .ok (events.map fun e ↦ (e.candidate.map (chunk env model · e.counts)).toList.map .ok) := by
    induction events with
    | nil => rfl
    | cons e events ih =>
      rw [List.map_cons, List.mapM_cons, eventChunks_json, ih]
      rfl
  rw [streamChunks, hmap, chunks, List.map_flatMap]
  rfl

/-! ### Gemini's readings -/

theorem lastSome_map {α β : Type*} (f : α → β) (l : List (Option α)) :
    lastSome (l.map (·.map f)) = (lastSome l).map f := by
  have hsome : (l.map (·.map f)).filterMap id = (l.filterMap id).map f := by
    rw [List.filterMap_map, List.map_filterMap]
    rfl
  rw [lastSome, hsome, List.getLast?_map, lastSome]

/-- The texts run together are the same without what follows each exactly if nothing does. -/
theorem join_eq_iff {α : Type*} (l : List α) (f g : α → String) :
    String.join (l.map f) = String.join (l.map fun a ↦ f a ++ g a) ↔ ∀ a ∈ l, g a = "" := by
  have hle (l : List α) : (String.join (l.map f)).length ≤
      (String.join (l.map fun a ↦ f a ++ g a)).length := by
    induction l with
    | nil => exact Nat.le_refl _
    | cons a l ih =>
      simp only [List.map_cons, String.join_cons, String.length_append]
      omega
  induction l with
  | nil => exact iff_of_true rfl fun _ ha ↦ by cases ha
  | cons a l ih =>
    rw [List.map_cons, List.map_cons, String.join_cons, String.join_cons, List.forall_mem_cons,
      String.append_assoc, String.append_right_inj]
    constructor
    · intro heq
      have hlength := congrArg String.length heq
      have hrest := hle l
      rw [String.length_append] at hlength
      have hempty : g a = "" := String.length_eq_zero_iff.1 (by omega)
      rw [hempty, String.empty_append] at heq
      exact ⟨hempty, ih.1 heq⟩
    · rintro ⟨hempty, hrest⟩
      rw [hempty, String.empty_append]
      exact ih.2 hrest

/-- The text of an event after its first part. -/
def Candidate.laterText (c : Candidate) : String := String.join (c.parts.tail.map (·.said))

theorem said_eq (c : Candidate) :
    String.join (c.parts.map (·.said)) = c.firstText.getD "" ++ c.laterText := by
  rw [Candidate.firstText, Candidate.laterText]
  rcases c.parts with - | ⟨part, parts⟩
  · rfl
  · rw [List.map_cons, String.join_cons]
    rcases part with s | ⟨name, args⟩
    · rfl
    · rfl

/-- The events with a candidate. -/
def withCandidate (events : List Event) : List Event := events.filter (·.candidate.isSome)

theorem join_filterMap {α : Type*} (f : α → Option String) (l : List α) :
    String.join (l.filterMap f) = String.join (l.map fun a ↦ (f a).getD "") := by
  induction l with
  | nil => rfl
  | cons a l ih =>
    rw [List.filterMap_cons, List.map_cons, String.join_cons, ← ih]
    rcases f a with - | s
    · exact String.empty_append.symm
    · exact String.join_cons

/-- The choice of an event with the candidate. -/
def Candidate.choice (c : Candidate) : StreamChoice :=
  ⟨0, ⟨none, c.firstText, none⟩, c.finishReason.map mapFinishReason⟩

theorem choices_chunks (env : ProviderEnv) (model : String) (events : List Event) :
    (chunks env model events).flatMap (·.choices) =
      (events.filterMap (·.candidate)).map (·.choice) := by
  induction events with
  | nil => rfl
  | cons e events ih =>
    rw [chunks, List.flatMap_cons, List.flatMap_append, ← chunks, ih, List.filterMap_cons]
    rcases e.candidate with - | c
    · rfl
    · rfl

theorem usage_chunks (env : ProviderEnv) (model : String) (events : List Event) :
    (chunks env model events).map (·.usage) =
      ((withCandidate events).map (·.counts)).map (·.map (·.usage)) := by
  induction events with
  | nil => rfl
  | cons e events ih =>
    rw [chunks, List.flatMap_cons, List.map_append, ← chunks, ih]
    rcases hcandidate : e.candidate with - | c
    · have hskip : withCandidate (e :: events) = withCandidate events :=
        List.filter_cons_of_neg (by rw [hcandidate]; exact Bool.false_ne_true)
      rw [hskip]
      rfl
    · have hkeep : withCandidate (e :: events) = e :: withCandidate events :=
        List.filter_cons_of_pos (by rw [hcandidate]; rfl)
      rw [hkeep]
      rfl

/-- What the stream is read as. -/
theorem readChunks_chunks (env : ProviderEnv) (model : String) (events : List Event) :
    readChunks (chunks env model events) =
      ⟨String.join ((events.filterMap (·.candidate)).map fun c ↦ c.firstText.getD ""), [],
        (lastSome ((events.filterMap (·.candidate)).map (·.finishReason))).map mapFinishReason,
        (lastSome ((withCandidate events).map (·.counts))).map (·.usage)⟩ := by
  rw [readChunks, choices_chunks, usage_chunks, lastSome_map]
  have hcontent : String.join (((events.filterMap (·.candidate)).map (·.choice)).filterMap
      (·.delta.content)) =
        String.join ((events.filterMap (·.candidate)).map fun c ↦ c.firstText.getD "") := by
    rw [List.filterMap_map, join_filterMap]
    rfl
  have hcalls : ((events.filterMap (·.candidate)).map (·.choice)).flatMap
      (·.delta.toolCalls.getD []) = [] := by
    rw [List.flatMap_eq_nil_iff, List.forall_mem_map]
    exact fun _ _ ↦ rfl
  have hfinish : lastSome (((events.filterMap (·.candidate)).map (·.choice)).map (·.finishReason)) =
      (lastSome ((events.filterMap (·.candidate)).map (·.finishReason))).map mapFinishReason := by
    rw [← lastSome_map, List.map_map, List.map_map]
    rfl
  exact congr (congr (congrArg₂ Reading.mk hcontent (congrArg assemble hcalls)) hfinish) rfl

/-- What an answer loses nothing of as a stream: no calls, no text after the first part of an event,
and the usage with a candidate. -/
structure Streamable (events : List Event) (c : Candidate) : Prop where
  calls : c.parts.filterMap (·.call) = []
  text : ∀ e ∈ events.filterMap (·.candidate), e.laterText = ""
  usage : (lastSome ((withCandidate events).map (·.counts))).map (·.usage) =
    (lastSome (events.map (·.counts))).map (·.usage)

/-- The two deliveries of an answer are read alike, up to the ids of the calls, exactly if it loses
nothing as a stream. -/
theorem readAlike_iff {env : ProviderEnv} {model : String} {events : List Event} {c : Candidate}
    {counts : Option Counts} (h : Delivers events c counts) :
    ReadAlike Reading.anonymous (parseResponse env (Event.json ⟨some c, counts⟩) model)
      (streamChunks env model (events.map (·.json))) ↔ Streamable events c := by
  obtain ⟨r, hr, hreading⟩ := parseResponse_body env model c counts
  have htext : String.join (c.parts.map (·.said)) = String.join
      ((events.filterMap (·.candidate)).map fun e ↦ e.firstText.getD "" ++ e.laterText) := by
    rw [← h.text, partsOf]
    induction events.filterMap (·.candidate) with
    | nil => rfl
    | cons e es ih =>
      rw [List.flatMap_cons, List.map_append, String.join_append, ih, List.map_cons,
        String.join_cons, said_eq]
  have hiff : r.reading.anonymous = (readChunks (chunks env model events)).anonymous ↔
      Streamable events c := by
    rw [hreading, readChunks_chunks, Reading.anonymous, Reading.anonymous, Reading.mk.injEq,
      h.finishReason, List.map_nil, List.map_eq_nil_iff, partsCalls_map, htext, ← h.counts]
    constructor
    · rintro ⟨hcontent, hcalls, -, husage⟩
      exact ⟨hcalls, (join_eq_iff _ _ _).1 hcontent.symm, husage.symm⟩
    · intro hs
      exact ⟨((join_eq_iff _ _ _).2 hs.text).symm, hs.calls, rfl, hs.usage.symm⟩
  rw [← hiff]
  constructor
  · rintro ⟨r', chunks', hr', hchunks, hread⟩
    obtain rfl := Except.ok.inj (Except.ok.inj (hr.symm.trans hr'))
    rw [streamChunks_json] at hchunks
    obtain rfl := (List.map_inj_right fun _ _ h ↦ Except.ok.inj h).1 (Except.ok.inj hchunks)
    exact hread
  · intro hread
    exact ⟨r, _, hr, streamChunks_json env model events, hread⟩

end Gemini

/-! ### Both providers -/

/-- An answer that calls a tool, and what is used of other libraries. -/
def callingAnswer : Anthropic.Answer where
  id := "msg_1"
  model := "claude-3-5-sonnet-20241022"
  blocks := [(.toolUse "toolu_1" "get_time" (.object []), ["\x7b", "\x7d"])]
  stopReason := some "tool_use"
  inputTokens := 9
  outputTokens := 5

/-- A library that writes an empty object. -/
def emptyEnv : ProviderEnv := ⟨0, fun _ ↦ "\x7b\x7d", toString⟩

/-- The response has the call, and the stream of the same answer has none. -/
theorem call_not_streamed :
    callingAnswer.Pieces emptyEnv.render ∧
      (callingAnswer.reading emptyEnv.render).toolCalls =
        [⟨"toolu_1", "function", "get_time", "\x7b\x7d"⟩] ∧
      (readChunks (callingAnswer.firstChunk 0 ::
        (callingAnswer.chunks 0 ++ [callingAnswer.lastChunk 0]))).toolCalls = [] ∧
      ¬∀ (env : ProviderEnv) (a : Anthropic.Answer), a.Pieces env.render →
        ReadAlike id (Anthropic.parseResponse env a.body)
          (Anthropic.streamChunks env.now 0 a.events) := by
  have hpieces : callingAnswer.Pieces emptyEnv.render := by
    intro p hp
    rw [List.mem_singleton.1 hp]
    rfl
  refine ⟨hpieces, rfl, rfl, fun h ↦ ?_⟩
  have htext := ((Anthropic.readAlike_iff hpieces).1 (h _ _ hpieces)).1 _ List.mem_cons_self
  exact absurd htext Bool.false_ne_true

/-- **What is streamed is what is returned in one piece** exactly if: of Anthropic, no tool is used
and the token counts fit; of Gemini, no function is called, no event has text after its first part,
and the last usage of the events with a candidate is the last one. -/
theorem streamed_as_whole_iff (env : ProviderEnv) :
    (∀ a : Anthropic.Answer, a.Pieces env.render →
      (ReadAlike id (Anthropic.parseResponse env a.body)
          (Anthropic.streamChunks env.now 0 a.events) ↔
        (∀ p ∈ a.blocks, p.1.isText = true) ∧ a.Fits)) ∧
    ∀ (model : String) (events : List Gemini.Event) (c : Gemini.Candidate)
      (counts : Option Gemini.Counts), Gemini.Delivers events c counts →
      (ReadAlike Reading.anonymous
          (Gemini.parseResponse env (Gemini.Event.json ⟨some c, counts⟩) model)
          (Gemini.streamChunks env model (events.map (·.json))) ↔
        Gemini.Streamable events c) :=
  ⟨fun _ ↦ Anthropic.readAlike_iff, fun _ _ _ _ ↦ Gemini.readAlike_iff⟩

/-- Two events, the last with the usage. -/
def helloEvents : List Gemini.Event :=
  [⟨some ⟨[.text "Hel"], none⟩, none⟩, ⟨some ⟨[.text "lo"], some "STOP"⟩, some ⟨1, 2, 3⟩⟩]

/-- An answer of Gemini in these events. -/
theorem hello_streamed_as_whole :
    ReadAlike Reading.anonymous
      (Gemini.parseResponse emptyEnv
        (Gemini.Event.json ⟨some ⟨[.text "Hello"], some "STOP"⟩, some ⟨1, 2, 3⟩⟩) "gemini-pro")
      (Gemini.streamChunks emptyEnv "gemini-pro" (helloEvents.map (·.json))) := by
  have hdelivers : Gemini.Delivers helloEvents ⟨[.text "Hello"], some "STOP"⟩ (some ⟨1, 2, 3⟩) :=
    ⟨by decide +kernel, rfl, rfl, rfl⟩
  refine ((streamed_as_whole_iff emptyEnv).2 "gemini-pro" _ _ _ hdelivers).2
    ⟨rfl, fun e he ↦ ?_, rfl⟩
  rcases List.mem_cons.1 he with rfl | he
  · rfl
  · rw [List.mem_singleton.1 he]
    rfl

end Himadri
