import Himadri.Provider.Gemini

/-!
# Reading token counts

What the providers parse is any JSON. They read members of a value, which answers for every name,
except for the token counts: those they read from the map of an object, where a missing count
panics, and Anthropic's are added over `u32`. An answer is parsed without a panic exactly where the
counts are there and fit (`parsing_returns_iff`).
-/

namespace Himadri

/-- Code that returns: no panic. -/
def Returns {α : Type} (r : Except Panic α) : Prop := ∃ a, r = .ok a

section Returns

variable {α β : Type}

theorem returns_ok (a : α) : Returns (.ok a : Except Panic α) := ⟨a, rfl⟩

theorem returns_bind {r : Except Panic α} {f : α → Except Panic β} :
    Returns (r >>= f) ↔ ∃ a, r = .ok a ∧ Returns (f a) := by
  rcases r with e | a
  · exact iff_of_false (fun ⟨_, h⟩ ↦ by cases h) fun ⟨_, h, _⟩ ↦ by cases h
  · exact ⟨fun h ↦ ⟨a, rfl, h⟩, fun ⟨b, h, hb⟩ ↦ Except.ok.inj h ▸ hb⟩

/-- What follows cannot panic. -/
theorem returns_bind_pure {r : Except Panic α} {f : α → β} :
    (Returns do let a ← r; pure (f a)) ↔ Returns r := by
  rw [returns_bind]
  exact exists_congr fun a ↦ and_iff_left (returns_ok (f a))

theorem returns_map {r : Except Panic α} {f : α → β} : Returns (r.map f) ↔ Returns r := by
  rcases r with e | a
  · exact iff_of_false (fun ⟨_, h⟩ ↦ by cases h) fun ⟨_, h⟩ ↦ by cases h
  · exact iff_of_true (returns_ok _) (returns_ok a)

theorem returns_optionMapM {o : Option α} {f : α → Except Panic β} :
    Returns (o.mapM f) ↔ ∀ a, o = some a → Returns (f a) := by
  rcases o with - | a
  · exact iff_of_true (returns_ok none) fun _ h ↦ by cases h
  · show Returns (f a >>= fun b ↦ .ok (some b)) ↔ _
    refine returns_bind_pure.trans ?_
    exact ⟨fun h _ heq ↦ Option.some.inj heq ▸ h, fun h ↦ h a rfl⟩

theorem returns_listMapM {l : List α} {f : α → Except Panic β} :
    Returns (l.mapM f) ↔ ∀ a ∈ l, Returns (f a) := by
  induction l with
  | nil => exact iff_of_true ⟨[], rfl⟩ (List.forall_mem_nil _)
  | cons a l ih =>
    rw [List.mapM_cons, returns_bind, List.forall_mem_cons, ← ih]
    rw [show Returns (f a) = ∃ b, f a = .ok b from rfl, ← exists_and_right]
    exact exists_congr fun b ↦ and_congr_right fun _ ↦ returns_bind_pure

theorem returns_mapIndex {members : List (String × Json)} {name : String} :
    Returns (mapIndex members name) ↔ ∃ v, Serde.member members name = some v :=
  exists_congr fun _ ↦ mapIndex_eq_ok

theorem returns_addU32 {a b : ℕ} : Returns (addU32 a b) ↔ a + b < UInt32.size := by
  simp only [Returns, addU32_eq_ok, exists_and_left, exists_eq', and_true]

end Returns

/-! ### Anthropic -/

namespace Anthropic

/-- The counts of a response are there, and their sum is a `u32`. -/
def CountsFit (response : Json) : Prop :=
  ∀ u, (response.get "usage").asObject = some u →
    ∃ input output, Serde.member u "input_tokens" = some input ∧
      Serde.member u "output_tokens" = some output ∧
      tokenCount input + tokenCount output < UInt32.size

/-- The count of a `message_delta` is there, and its sum with that of the prompt is a `u32`. -/
def DeltaFits (inputTokens : ℕ) (data : Json) : Prop :=
  ∀ u, (data.get "usage").asObject = some u →
    ∃ output, Serde.member u "output_tokens" = some output ∧
      inputTokens + tokenCount output < UInt32.size

/-- The count of the prompt after an event: a `message_start` sets it. -/
def promptTokens (inputTokens : ℕ) (event : String × Json) : ℕ :=
  if event.1 = "message_start" then
    tokenCount (((event.2.get "message").get "usage").get "input_tokens")
  else inputTokens

/-- The events of a stream fit: each `message_delta` with the count the events before it leave. -/
def StreamFits (inputTokens : ℕ) (events : List (String × Json)) : Prop :=
  ∀ before data after, events = before ++ ("message_delta", data) :: after →
    DeltaFits (before.foldl promptTokens inputTokens) data

theorem returns_responseUsage {u : List (String × Json)} :
    Returns (responseUsage u) ↔ ∃ input output, Serde.member u "input_tokens" = some input ∧
      Serde.member u "output_tokens" = some output ∧
      tokenCount input + tokenCount output < UInt32.size := by
  rw [responseUsage, returns_bind]
  refine exists_congr fun input ↦ ?_
  rw [returns_bind, mapIndex_eq_ok, ← exists_and_left]
  refine exists_congr fun output ↦ ?_
  rw [mapIndex_eq_ok, returns_bind_pure, returns_addU32]

theorem returns_parseResponse {env : ProviderEnv} {response : Json} :
    Returns (parseResponse env response) ↔ CountsFit response := by
  rw [parseResponse, returns_bind_pure, returns_optionMapM]
  exact forall₂_congr fun u _ ↦ returns_responseUsage

theorem returns_deltaUsage {inputTokens : ℕ} {u : List (String × Json)} :
    Returns (deltaUsage inputTokens u) ↔ ∃ output, Serde.member u "output_tokens" = some output ∧
      inputTokens + tokenCount output < UInt32.size := by
  rw [deltaUsage, returns_bind]
  refine exists_congr fun output ↦ ?_
  rw [mapIndex_eq_ok, returns_bind_pure, returns_addU32]

/-- An event is parsed without a panic unless it is a `message_delta` that does not fit. -/
theorem returns_parseStreamEvent (now : ℕ) {inputTokens : ℕ} {eventType : String} {data : Json} :
    Returns (parseStreamEvent now eventType data inputTokens) ↔
      (eventType = "message_delta" → DeltaFits inputTokens data) := by
  rw [parseStreamEvent]
  by_cases hdelta : eventType = "message_delta"
  · rw [hdelta, if_neg (by decide), if_neg (by decide), if_pos rfl, forall_prop_of_true rfl]
    refine returns_bind_pure.trans (returns_optionMapM.trans ?_)
    exact forall₂_congr fun u _ ↦ returns_deltaUsage
  · refine iff_of_true ?_ fun h ↦ absurd h hdelta
    split_ifs
    · exact returns_ok _
    · exact returns_ok _
    · exact returns_ok _

/-- The `input_tokens` after an event. -/
theorem parseStreamEvent_snd {now inputTokens : ℕ} {eventType : String} {data : Json}
    {r : Option (Except ProviderError StreamChunk) × ℕ}
    (h : parseStreamEvent now eventType data inputTokens = .ok r) :
    r.2 = promptTokens inputTokens (eventType, data) := by
  rw [parseStreamEvent] at h
  rw [promptTokens]
  split_ifs at h ⊢ with hstart hcontent hdelta
  · rw [← Except.ok.inj h]
  · rw [← Except.ok.inj h]
  · rcases husage : (data.get "usage").asObject.mapM (deltaUsage inputTokens) with e | usage
    · rw [husage] at h
      cases h
    · rw [husage] at h
      rw [← Except.ok.inj h]
  · rw [← Except.ok.inj h]

theorem streamFits_cons {inputTokens : ℕ} {event : String × Json} {events : List (String × Json)} :
    StreamFits inputTokens (event :: events) ↔
      (event.1 = "message_delta" → DeltaFits inputTokens event.2) ∧
        StreamFits (promptTokens inputTokens event) events := by
  constructor
  · refine fun h ↦ ⟨fun hdelta ↦ h [] event.2 events ?_, fun before data after heq ↦ ?_⟩
    · rw [← hdelta]
      rfl
    · exact h (event :: before) data after (congrArg (event :: ·) heq)
  · rintro ⟨hevent, hevents⟩ (- | ⟨e, before⟩) data after heq
    · obtain ⟨rfl, -⟩ := List.cons.inj heq
      exact hevent rfl
    · obtain ⟨rfl, hrest⟩ := List.cons.inj heq
      exact hevents before data after hrest

/-- The events of a stream are parsed without a panic exactly where they fit. -/
theorem returns_streamChunks {now : ℕ} (events : List (String × Json)) (inputTokens : ℕ) :
    Returns (streamChunks now inputTokens events) ↔ StreamFits inputTokens events := by
  induction events generalizing inputTokens with
  | nil =>
    refine iff_of_true (returns_ok []) fun before data after h ↦ ?_
    exact absurd h.symm (List.append_ne_nil_of_right_ne_nil before (List.cons_ne_nil _ _))
  | cons event events ih =>
    obtain ⟨eventType, data⟩ := event
    rw [streamFits_cons, ← returns_parseStreamEvent now, ← ih, streamChunks, returns_bind,
      Returns, ← exists_and_right]
    refine exists_congr fun r ↦ and_congr_right fun hr ↦ ?_
    rw [← parseStreamEvent_snd hr]
    exact returns_bind_pure

end Anthropic

/-! ### Gemini -/

namespace Gemini

/-- The counts of a `usageMetadata` are there. -/
def CountsPresent (v : Json) : Prop :=
  ∀ u, (v.get "usageMetadata").asObject = some u →
    ∀ name ∈ ["promptTokenCount", "candidatesTokenCount", "totalTokenCount"],
      ∃ count, Serde.member u name = some count

theorem returns_usageOf {u : List (String × Json)} :
    Returns (usageOf u) ↔
      ∀ name ∈ ["promptTokenCount", "candidatesTokenCount", "totalTokenCount"],
        ∃ count, Serde.member u name = some count := by
  rw [usageOf, returns_bind, List.forall_mem_cons, List.forall_mem_cons, List.forall_mem_singleton]
  rw [← exists_and_right]
  refine exists_congr fun prompt ↦ ?_
  rw [mapIndex_eq_ok, returns_bind, ← exists_and_right]
  refine and_congr_right fun _ ↦ exists_congr fun candidates ↦ ?_
  rw [mapIndex_eq_ok, returns_bind_pure, returns_mapIndex]

/-- A body without a candidate is refused before its counts are read. -/
theorem returns_parseResponse {env : ProviderEnv} {response : Json} {model : String} :
    Returns (parseResponse env response model) ↔
      (firstCandidate response).isSome = true → CountsPresent response := by
  rw [parseResponse]
  rcases firstCandidate response with - | candidate
  · exact iff_of_true (returns_ok _) fun h ↦ by cases h
  · refine Iff.trans ?_ (forall_prop_of_true rfl).symm
    refine returns_bind_pure.trans (returns_optionMapM.trans ?_)
    exact forall₂_congr fun u _ ↦ returns_usageOf

theorem returns_parseStreamChunk {env : ProviderEnv} {chunk : Json} {model : String} :
    Returns (parseStreamChunk env chunk model) ↔ CountsPresent chunk := by
  refine returns_bind_pure.trans (returns_optionMapM.trans ?_)
  exact forall₂_congr fun u _ ↦ returns_usageOf

theorem countsPresent_singleChunk {chunk candidate : Json} :
    CountsPresent (singleChunk chunk candidate) ↔ CountsPresent chunk := Iff.rfl

/-- An event is read once for each of its candidates. -/
theorem returns_streamChunks {env : ProviderEnv} {model : String} {events : List Json} :
    Returns (streamChunks env model events) ↔
      ∀ chunk ∈ events, (firstCandidate chunk).isSome = true → CountsPresent chunk := by
  rw [streamChunks, returns_map, returns_listMapM]
  refine forall₂_congr fun chunk _ ↦ ?_
  rw [eventChunks, returns_listMapM, firstCandidate]
  rcases (chunk.get "candidates").asArray with - | (- | ⟨candidate, candidates⟩)
  · exact iff_of_true (List.forall_mem_nil _) fun h ↦ by cases h
  · exact iff_of_true (List.forall_mem_nil _) fun h ↦ by cases h
  · refine ⟨fun h _ ↦ ?_, fun h c _ ↦ ?_⟩
    · exact countsPresent_singleChunk.1
        (returns_parseStreamChunk.1 (h candidate List.mem_cons_self))
    · exact returns_parseStreamChunk.2 (countsPresent_singleChunk.2 (h rfl))

end Gemini

/-- What is parsed without a panic: an Anthropic response whose counts are there and add up to a
`u32`, a stream of it where each `message_delta` has a count that does so with the one the last
`message_start` left, and a Gemini response or event with its three counts, where it has a
candidate. A `usage` that is no object is not read. -/
theorem parsing_returns_iff (env : ProviderEnv) (model : String) :
    (∀ response, (∃ r, Anthropic.parseResponse env response = .ok r) ↔
      Anthropic.CountsFit response) ∧
    (∀ inputTokens eventType data,
      (∃ r, Anthropic.parseStreamEvent env.now eventType data inputTokens = .ok r) ↔
        (eventType = "message_delta" → Anthropic.DeltaFits inputTokens data)) ∧
    (∀ inputTokens events, (∃ r, Anthropic.streamChunks env.now inputTokens events = .ok r) ↔
      Anthropic.StreamFits inputTokens events) ∧
    (∀ response, (∃ r, Gemini.parseResponse env response model = .ok r) ↔
      ((Gemini.firstCandidate response).isSome = true → Gemini.CountsPresent response)) ∧
    (∀ chunk, (∃ r, Gemini.parseStreamChunk env chunk model = .ok r) ↔
      Gemini.CountsPresent chunk) ∧
    (∀ events, (∃ r, Gemini.streamChunks env model events = .ok r) ↔
      ∀ chunk ∈ events, (Gemini.firstCandidate chunk).isSome = true →
        Gemini.CountsPresent chunk) := by
  refine ⟨fun response ↦ ?_, fun inputTokens eventType data ↦ ?_, fun inputTokens events ↦ ?_,
    fun response ↦ ?_, fun chunk ↦ ?_, fun events ↦ ?_⟩
  · exact Anthropic.returns_parseResponse
  · exact Anthropic.returns_parseStreamEvent env.now
  · exact Anthropic.returns_streamChunks events inputTokens
  · exact Gemini.returns_parseResponse
  · exact Gemini.returns_parseStreamChunk
  · exact Gemini.returns_streamChunks

/-- A Gemini event whose `usageMetadata` has no `candidatesTokenCount` panics, as does an Anthropic
response without `output_tokens`; and a `message_delta` of one token overflows after a
`message_start` of the most that a `u32` holds. -/
theorem absent_counts_panic :
    Gemini.parseStreamChunk ⟨0, fun _ ↦ "", fun _ ↦ ""⟩
      (.object [("usageMetadata", .object [("promptTokenCount", .nat 8)])]) "gemini-pro" =
        .error (.absentKey "candidatesTokenCount") ∧
    Anthropic.parseResponse ⟨0, fun _ ↦ "", fun _ ↦ ""⟩
      (.object [("usage", .object [("input_tokens", .nat 8)])]) =
        .error (.absentKey "output_tokens") ∧
    Anthropic.streamChunks 0 0
      [("message_start", .object [("message", .object [("usage",
          .object [("input_tokens", .nat 4294967295)])])]),
        ("message_delta", .object [("usage", .object [("output_tokens", .nat 1)])])] =
      .error .overflow := by
  refine ⟨rfl, rfl, ?_⟩
  rfl

end Himadri
