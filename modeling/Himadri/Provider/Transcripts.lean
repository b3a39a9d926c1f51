import Himadri.Provider.Gemini

/-!
# An answer in one piece and as a stream

What a client reads of a response, and of the chunks of a stream: the text run together, the tool
calls assembled by their index, and the last finish reason and usage. The answers of Anthropic and
of Gemini, as a body and as the events that deliver it, in whatever pieces.

The streams of both lose every tool call. Anthropic's says the rest (`Anthropic.reading_iff`);
Gemini's reads the first part of an event only, and no usage of an event without candidates
(`Gemini.reading_iff`).
-/

namespace Himadri

/-! ### What a client reads -/

/-- The last value there is. -/
def lastSome {α : Type*} (l : List (Option α)) : Option α := (l.filterMap id).getLast?

/-- What a client makes of an answer. -/
structure Reading where
  content : String
  toolCalls : List ToolCall
  finishReason : Option String
  usage : Option Usage
  deriving DecidableEq

/-- A delta for a tool call, put to those before it: a further piece of the one with its index, or a
new one. -/
def putDelta (calls : List (ℕ × ToolCall)) (d : ToolCallDelta) : List (ℕ × ToolCall) :=
  let name := (d.function.bind (·.name)).getD ""
  let arguments := (d.function.bind (·.arguments)).getD ""
  if calls.any (·.1 == d.index) then
    calls.map fun c ↦ if c.1 == d.index then
      (c.1, { c.2 with functionName := c.2.functionName ++ name
                       arguments := c.2.arguments ++ arguments }) else c
  else calls ++ [(d.index, ⟨d.id.getD "", d.toolType.getD "function", name, arguments⟩)]

/-- The tool calls of the deltas, assembled by index. -/
def assemble (deltas : List ToolCallDelta) : List ToolCall := (deltas.foldl putDelta []).map (·.2)

/-- The reading of a response, by its first choice. -/
def ChatCompletionResponse.reading (r : ChatCompletionResponse) : Reading where
  content := (r.choices.head?.bind (·.message.content)).getD ""
  toolCalls := (r.choices.head?.bind (·.message.toolCalls)).getD []
  finishReason := r.choices.head?.bind (·.finishReason)
  usage := r.usage

/-- The reading of the chunks of a stream. -/
def readChunks (chunks : List StreamChunk) : Reading :=
  let choices := chunks.flatMap (·.choices)
  { content := String.join (choices.filterMap (·.delta.content))
    toolCalls := assemble (choices.flatMap (·.delta.toolCalls.getD []))
    finishReason := lastSome (choices.map (·.finishReason))
    usage := lastSome (chunks.map (·.usage)) }

/-- A reading without the ids of its tool calls. -/
def Reading.anonymous (r : Reading) : Reading :=
  { r with toolCalls := r.toolCalls.map fun c ↦ { c with id := "" } }

/-- The two deliveries of an answer are read alike, up to the ids of the tool calls if these are
drawn. -/
def ReadAlike (ids : Reading → Reading)
    (response : Except Panic (Except ProviderError ChatCompletionResponse))
    (stream : Except Panic (List (Except ProviderError StreamChunk))) : Prop :=
  ∃ r chunks, response = .ok (.ok r) ∧ stream = .ok (chunks.map .ok) ∧
    ids r.reading = ids (readChunks chunks)

namespace Anthropic

/-! ### Anthropic's deliveries -/

/-- A content block. -/
inductive Block
  | text (s : String)
  | toolUse (id name : String) (input : Json)

/-- A message, each block with the pieces that a stream delivers it in. -/
structure Answer where
  id : String
  model : String
  blocks : List (Block × List String)
  stopReason : Option String
  inputTokens : ℕ
  outputTokens : ℕ

namespace Block

/-- The block of a body. -/
def json : Block → Json
  | .text s => .object [("type", .string "text"), ("text", .string s)]
  | .toolUse id name input =>
    .object [("type", .string "tool_use"), ("id", .string id), ("name", .string name),
      ("input", input)]

/-- The block that a stream begins with. -/
def opening : Block → Json
  | .text _ => .object [("type", .string "text"), ("text", .string "")]
  | .toolUse id name _ =>
    .object [("type", .string "tool_use"), ("id", .string id), ("name", .string name),
      ("input", .object [])]

/-- A piece of the block. -/
def delta (piece : String) : Block → Json
  | .text _ => .object [("type", .string "text_delta"), ("text", .string piece)]
  | .toolUse _ _ _ =>
    .object [("type", .string "input_json_delta"), ("partial_json", .string piece)]

/-- What the pieces run together to. -/
def whole (render : Json → String) : Block → String
  | .text s => s
  | .toolUse _ _ input => render input

/-- The block is a `text` block. -/
def isText : Block → Bool
  | .text _ => true
  | .toolUse _ _ _ => false

/-- The events of the block at an index. -/
def events (index : ℕ) (b : Block) (pieces : List String) : List (String × Json) :=
  ("content_block_start", .object [("type", .string "content_block_start"), ("index", .nat index),
    ("content_block", b.opening)]) ::
  pieces.map (fun piece ↦ ("content_block_delta",
    .object [("type", .string "content_block_delta"), ("index", .nat index),
      ("delta", b.delta piece)])) ++
  [("content_block_stop", .object [("type", .string "content_block_stop"), ("index", .nat index)])]

end Block

namespace Answer

variable (a : Answer)

/-- The pieces of every block run together to it. -/
def Pieces (render : Json → String) : Prop :=
  ∀ p ∈ a.blocks, String.join p.2 = p.1.whole render

/-- The message as a body. -/
def body : Json :=
  .object [("id", .string a.id), ("type", .string "message"), ("role", .string "assistant"),
    ("model", .string a.model), ("content", .array (a.blocks.map (·.1.json))),
    ("stop_reason", .ofOption a.stopReason),
    ("usage", .object [("input_tokens", .nat a.inputTokens),
      ("output_tokens", .nat a.outputTokens)])]

/-- `message_start`. -/
def startEvent : String × Json :=
  ("message_start", .object [("type", .string "message_start"),
    ("message", .object [("id", .string a.id), ("type", .string "message"),
      ("role", .string "assistant"), ("model", .string a.model), ("content", .array []),
      ("stop_reason", .null),
      ("usage", .object [("input_tokens", .nat a.inputTokens), ("output_tokens", .nat 1)])])])

/-- The events of the blocks. -/
def blockEvents : List (String × Json) :=
  (a.blocks.zipIdx.map fun p ↦ p.1.1.events p.2 p.1.2).flatten

/-- `message_delta`. -/
def deltaEvent : String × Json :=
  ("message_delta", .object [("type", .string "message_delta"),
    ("delta", .object [("stop_reason", .ofOption a.stopReason)]),
    ("usage", .object [("output_tokens", .nat a.outputTokens)])])

/-- The message as events. -/
def events : List (String × Json) :=
  a.startEvent :: (a.blockEvents ++
    [a.deltaEvent, ("message_stop", .object [("type", .string "message_stop")])])

/-- The token counts, as the provider takes them, have a sum in `u32`. -/
def Fits : Prop :=
  a.inputTokens % UInt32.size + a.outputTokens % UInt32.size < UInt32.size

end Answer

/-! ### Anthropic's response -/

/-- The text of the block. -/
def Block.said : Block → String
  | .text s => s
  | .toolUse _ _ _ => ""

/-- The text of the message. -/
def Answer.said (a : Answer) : String := String.join (a.blocks.map (·.1.said))

theorem blocksText_map (a : Answer) : blocksText (a.blocks.map (·.1.json)) = a.said := by
  rw [blocksText, Answer.said]
  induction a.blocks with
  | nil => rfl
  | cons p blocks ih =>
    obtain ⟨s | ⟨id, name, input⟩, pieces⟩ := p
    · rw [List.map_cons, List.map_cons, String.join_cons, List.filter_cons_of_pos (by rfl), ← ih,
        ← String.join_cons]
      rfl
    · rw [List.map_cons, List.map_cons, String.join_cons, List.filter_cons_of_neg, ih]
      · exact (String.empty_append).symm
      · exact Bool.false_ne_true

theorem blocksCalls_map (render : Json → String) (blocks : List (Block × List String)) :
    blocksCalls render (blocks.map (·.1.json)) = [] ↔ ∀ p ∈ blocks, p.1.isText = true := by
  rw [blocksCalls, List.map_eq_nil_iff, List.filter_eq_nil_iff, List.forall_mem_map]
  refine forall₂_congr fun p _ ↦ ?_
  obtain ⟨s | ⟨id, name, input⟩, pieces⟩ := p
  · exact iff_of_true Bool.false_ne_true rfl
  · exact iff_of_false (fun h ↦ h rfl) Bool.false_ne_true

/-! ### Anthropic's stream -/

/-- The content of the chunk of a piece: the piece of a text, and nothing of an input. -/
def Block.chunkContent (piece : String) : Block → Option String
  | .text _ => if piece.isEmpty then none else some piece
  | .toolUse _ _ _ => none

/-- The chunk of a piece. -/
def Block.chunk (now : ℕ) (b : Block) (piece : String) : StreamChunk :=
  streamChunk now { emptyDelta with content := b.chunkContent piece } none none

theorem streamChunks_cons {now t t' : ℕ} {eventType : String} {data : Json}
    {chunk : Option (Except ProviderError StreamChunk)}
    (h : parseStreamEvent now eventType data t = .ok (chunk, t')) (events : List (String × Json)) :
    streamChunks now t ((eventType, data) :: events) =
      (streamChunks now t' events).map (chunk.toList ++ ·) := by
  rw [streamChunks, h]
  show (do
    let chunks ← streamChunks now t' events
    pure (chunk.toList ++ chunks)) = _
  rcases streamChunks now t' events with e | chunks
  · rfl
  · rfl

theorem parse_piece (now t index : ℕ) (b : Block) (piece : String) :
    parseStreamEvent now "content_block_delta" (.object [("type", .string "content_block_delta"),
      ("index", .nat index), ("delta", b.delta piece)]) t =
        .ok (some (.ok (b.chunk now piece)), t) := by
  rcases b with s | ⟨id, name, input⟩
  · rfl
  · rfl

/-- The events of a block give one chunk for each piece. -/
theorem streamChunks_block (now t index : ℕ) (b : Block) (pieces : List String)
    (rest : List (String × Json)) :
    streamChunks now t (b.events index pieces ++ rest) =
      (streamChunks now t rest).map ((pieces.map fun piece ↦ .ok (b.chunk now piece)) ++ ·) := by
  have hstart (data : Json) (t : ℕ) : parseStreamEvent now "content_block_start" data t =
      .ok (none, t) := rfl
  have hstop (data : Json) (t : ℕ) : parseStreamEvent now "content_block_stop" data t =
      .ok (none, t) := rfl
  have hmap (x : Except Panic (List (Except ProviderError StreamChunk))) :
      x.map (Option.toList none ++ ·) = x := by
    rcases x with e | chunks
    · rfl
    · rfl
  rw [Block.events, List.cons_append, List.cons_append, streamChunks_cons (hstart _ t), hmap,
    List.append_assoc]
  induction pieces with
  | nil =>
    rw [List.map_nil, List.nil_append, List.singleton_append, streamChunks_cons (hstop _ t), hmap]
    exact (hmap _).symm
  | cons piece pieces ih =>
    rw [List.map_cons, List.cons_append, streamChunks_cons (parse_piece now t index b piece), ih]
    rcases streamChunks now t rest with e | chunks
    · rfl
    · rfl

/-- The chunks of all blocks. -/
def Answer.chunks (a : Answer) (now : ℕ) : List StreamChunk :=
  a.blocks.flatMap fun p ↦ p.2.map (p.1.chunk now)

theorem streamChunks_blocks (a : Answer) (now t : ℕ) (rest : List (String × Json)) :
    streamChunks now t (a.blockEvents ++ rest) =
      (streamChunks now t rest).map ((a.chunks now).map .ok ++ ·) := by
  rw [Answer.blockEvents, Answer.chunks]
  generalize 0 = i
  induction a.blocks generalizing i with
  | nil =>
    show streamChunks now t rest = _
    rcases streamChunks now t rest with e | chunks
    · rfl
    · rfl
  | cons p blocks ih =>
    rw [List.zipIdx_cons, List.map_cons, List.flatten_cons, List.append_assoc, streamChunks_block,
      ih, List.flatMap_cons, List.map_append, List.map_map]
    rcases streamChunks now t rest with e | chunks
    · rfl
    · exact congrArg Except.ok (List.append_assoc _ _ _).symm

/-! ### Anthropic's readings -/

/-- The usage of the message. -/
def Answer.usage (a : Answer) : Usage :=
  ⟨a.inputTokens % UInt32.size, a.outputTokens % UInt32.size,
    a.inputTokens % UInt32.size + a.outputTokens % UInt32.size⟩

/-- What the response is read as. -/
def Answer.reading (a : Answer) (render : Json → String) : Reading where
  content := a.said
  toolCalls := blocksCalls render (a.blocks.map (·.1.json))
  finishReason := a.stopReason.map mapFinishReason
  usage := some a.usage

theorem asStr_ofOption (s : Option String) : (Json.ofOption s).asStr = s := by
  rcases s with - | s
  · rfl
  · rfl

theorem getD_filter_isEmpty (s : String) : ((some s).filter (!·.isEmpty)).getD "" = s := by
  rw [Option.filter_some]
  split
  · rfl
  · next h =>
    rw [Bool.not_eq_true, Bool.not_eq_false', String.isEmpty_iff] at h
    exact h.symm

theorem getD_filter_isEmpty_list {α : Type*} (l : List α) :
    ((some l).filter (!·.isEmpty)).getD [] = l := by
  rcases l with - | ⟨x, l⟩
  · rfl
  · rfl

theorem addU32_usage (a : Answer) :
    addU32 (a.inputTokens % UInt32.size) (a.outputTokens % UInt32.size) =
      if a.inputTokens % UInt32.size + a.outputTokens % UInt32.size < UInt32.size then
        .ok a.usage.totalTokens else .error .overflow := rfl

/-- The response of a message that fits, and none of one that does not. -/
theorem parseResponse_body (env : ProviderEnv) (a : Answer) :
    (a.Fits → ∃ r, parseResponse env a.body = .ok (.ok r) ∧ r.reading = a.reading env.render) ∧
      (¬a.Fits → parseResponse env a.body = .error .overflow) := by
  have husage : (a.body.get "usage").asObject.mapM responseUsage =
      (addU32 (a.inputTokens % UInt32.size) (a.outputTokens % UInt32.size)).map fun total ↦
        some ⟨a.inputTokens % UInt32.size, a.outputTokens % UInt32.size, total⟩ := by
    show (responseUsage [("input_tokens", .nat a.inputTokens),
      ("output_tokens", .nat a.outputTokens)]).map some = _
    show ((addU32 (a.inputTokens % UInt32.size) (a.outputTokens % UInt32.size)).map _).map some = _
    rcases addU32 (a.inputTokens % UInt32.size) (a.outputTokens % UInt32.size) with e | total
    · rfl
    · rfl
  rw [parseResponse, husage, addU32_usage]
  constructor
  · intro h
    rw [if_pos (show _ < UInt32.size from h)]
    refine ⟨_, rfl, ?_⟩
    have hcontent : ((some (blocksText (a.blocks.map (·.1.json)))).filter (!·.isEmpty)).getD "" =
        a.said := by rw [getD_filter_isEmpty, blocksText_map]
    have hcalls := getD_filter_isEmpty_list (blocksCalls env.render (a.blocks.map (·.1.json)))
    have hfinish : (Json.ofOption a.stopReason).asStr.map mapFinishReason =
        a.stopReason.map mapFinishReason := by rw [asStr_ofOption]
    show Reading.mk _ _ _ _ = Reading.mk _ _ _ _
    exact congr (congr (congrArg₂ Reading.mk hcontent hcalls) hfinish) rfl
  · intro h
    rw [if_neg (show ¬_ < UInt32.size from h)]
    rfl

/-- The first chunk and the last one. -/
def Answer.firstChunk (a : Answer) (now : ℕ) : StreamChunk :=
  { streamChunk now { emptyDelta with role := some .assistant } none none with
    id := a.id, model := a.model }

/-- The last chunk. -/
def Answer.lastChunk (a : Answer) (now : ℕ) : StreamChunk :=
  streamChunk now emptyDelta (a.stopReason.map mapFinishReason) (some a.usage)

/-- The chunks of a message that fits. -/
theorem streamChunks_events (now : ℕ) {a : Answer} (h : a.Fits) :
    streamChunks now 0 a.events =
      .ok ((a.firstChunk now :: (a.chunks now ++ [a.lastChunk now])).map .ok) := by
  have hstart : parseStreamEvent now "message_start" a.startEvent.2 0 =
      .ok (some (.ok (a.firstChunk now)), a.inputTokens % UInt32.size) := rfl
  have hdelta : parseStreamEvent now "message_delta" a.deltaEvent.2 (a.inputTokens % UInt32.size) =
      .ok (some (.ok (a.lastChunk now)), a.inputTokens % UInt32.size) := by
    have husage : deltaUsage (a.inputTokens % UInt32.size)
        [("output_tokens", .nat a.outputTokens)] = .ok a.usage := by
      show (addU32 (a.inputTokens % UInt32.size) (a.outputTokens % UInt32.size)).map _ = _
      rw [addU32_usage, if_pos (show _ < UInt32.size from h)]
      rfl
    show (do
      let usage ← (deltaUsage (a.inputTokens % UInt32.size)
        [("output_tokens", .nat a.outputTokens)]).map some
      pure _) = _
    rw [husage]
    show Except.ok (some (Except.ok (streamChunk now emptyDelta
      ((Json.ofOption a.stopReason).asStr.map mapFinishReason) (some a.usage))), _) = _
    rw [asStr_ofOption]
    rfl
  have hstop (data : Json) (t : ℕ) : parseStreamEvent now "message_stop" data t =
      .ok (none, t) := rfl
  show streamChunks now 0 (("message_start", a.startEvent.2) :: (a.blockEvents ++
    [("message_delta", a.deltaEvent.2), ("message_stop", _)])) = _
  rw [streamChunks_cons hstart, streamChunks_blocks, streamChunks_cons hdelta,
    streamChunks_cons (hstop _ _)]
  exact congrArg Except.ok (by rw [List.map_cons, List.map_append]; rfl)

/-- What the chunks of a block bring: its text. -/
theorem read_pieces {render : Json → String} {b : Block} {pieces : List String}
    (h : String.join pieces = b.whole render) (now : ℕ) :
    String.join (((pieces.map (b.chunk now)).flatMap (·.choices)).filterMap (·.delta.content)) =
      b.said := by
  rcases b with s | ⟨id, name, input⟩
  · refine Eq.trans ?_ (show String.join pieces = s from h)
    clear h
    induction pieces with
    | nil => rfl
    | cons piece pieces ih =>
      rw [List.map_cons, List.flatMap_cons, List.filterMap_append, String.join_append, ih,
        String.join_cons]
      congr 1
      show String.join ([StreamChoice.mk 0 ⟨none, if piece.isEmpty then none else some piece, none⟩
        none].filterMap (·.delta.content)) = piece
      by_cases hempty : piece.isEmpty
      · rw [if_pos hempty, String.isEmpty_iff.1 hempty]
        rfl
      · rw [if_neg hempty]
        exact String.empty_append
  · show _ = ""
    clear h
    induction pieces with
    | nil => rfl
    | cons piece pieces ih => exact ih

/-- What the chunks of the blocks bring: the text of the message. -/
theorem read_chunks {render : Json → String} {a : Answer} (h : a.Pieces render) (now : ℕ) :
    String.join (((a.chunks now).flatMap (·.choices)).filterMap (·.delta.content)) = a.said := by
  rw [Answer.chunks, Answer.said]
  rw [Answer.Pieces] at h
  generalize a.blocks = blocks at h ⊢
  induction blocks with
  | nil => rfl
  | cons p blocks ih =>
    rw [List.flatMap_cons, List.flatMap_append, List.filterMap_append, String.join_append,
      read_pieces (h p List.mem_cons_self), ih fun q hq ↦ h q (List.mem_cons_of_mem _ hq),
      List.map_cons, String.join_cons]

/-- The chunks of the blocks bring no tool calls, no finish reason and no usage. -/
theorem chunks_plain {a : Answer} {now : ℕ} {c : StreamChunk} (h : c ∈ a.chunks now) :
    c.usage = none ∧ ∀ choice ∈ c.choices,
      choice.finishReason = none ∧ choice.delta.toolCalls = none := by
  obtain ⟨p, -, hc⟩ := List.mem_flatMap.1 h
  obtain ⟨piece, -, rfl⟩ := List.mem_map.1 hc
  exact ⟨rfl, fun choice hchoice ↦ by rw [List.mem_singleton.1 hchoice]; exact ⟨rfl, rfl⟩⟩

end Anthropic

/-- Where the values before the last one are missing, it is the last there is. -/
theorem lastSome_concat {α : Type*} {l : List (Option α)} (h : ∀ o ∈ l, o = none) (o : Option α) :
    lastSome (l ++ [o]) = o := by
  have hnil : l.filterMap id = [] := List.filterMap_eq_nil_iff.2 h
  rw [lastSome, List.filterMap_append, hnil, List.nil_append]
  rcases o with - | x
  · rfl
  · rfl

namespace Anthropic

/-- What the stream is read as: the same as the response, less the tool calls. -/
theorem readChunks_events {render : Json → String} {a : Answer} (h : a.Pieces render) (now : ℕ) :
    readChunks (a.firstChunk now :: (a.chunks now ++ [a.lastChunk now])) =
      { a.reading render with toolCalls := [] } := by
  have hcontent : String.join (((a.firstChunk now :: (a.chunks now ++ [a.lastChunk now])).flatMap
      (·.choices)).filterMap (·.delta.content)) = a.said := by
    rw [List.flatMap_cons, List.flatMap_append, List.filterMap_append, List.filterMap_append,
      String.join_append, String.join_append, read_chunks h]
    exact String.empty_append.trans String.append_empty
  -- the chunks before the last one
  have hplain : ∀ c ∈ a.firstChunk now :: a.chunks now, c.usage = none ∧
      ∀ choice ∈ c.choices, choice.finishReason = none ∧ choice.delta.toolCalls = none := by
    intro c hc
    rcases List.mem_cons.1 hc with rfl | hc
    · exact ⟨rfl, fun choice hchoice ↦ by rw [List.mem_singleton.1 hchoice]; exact ⟨rfl, rfl⟩⟩
    · exact chunks_plain hc
  rw [← List.cons_append] at hcontent ⊢
  generalize a.firstChunk now :: a.chunks now = before at hplain hcontent
  have hchoices : ∀ choice ∈ before.flatMap (·.choices),
      choice.finishReason = none ∧ choice.delta.toolCalls = none := by
    intro choice hchoice
    obtain ⟨c, hc, hmem⟩ := List.mem_flatMap.1 hchoice
    exact (hplain c hc).2 choice hmem
  have hcalls : ((before ++ [a.lastChunk now]).flatMap (·.choices)).flatMap
      (·.delta.toolCalls.getD []) = [] := by
    rw [List.flatMap_append, List.flatMap_append, List.append_eq_nil_iff]
    refine ⟨List.flatMap_eq_nil_iff.2 fun choice hchoice ↦ ?_, rfl⟩
    rw [(hchoices choice hchoice).2]
    rfl
  have hfinish : lastSome (((before ++ [a.lastChunk now]).flatMap (·.choices)).map
      (·.finishReason)) = a.stopReason.map mapFinishReason := by
    rw [List.flatMap_append, List.map_append]
    exact lastSome_concat (List.forall_mem_map.2 fun choice hchoice ↦ (hchoices choice hchoice).1) _
  have husage : lastSome ((before ++ [a.lastChunk now]).map (·.usage)) = some a.usage := by
    rw [List.map_append]
    exact lastSome_concat (List.forall_mem_map.2 fun c hc ↦ (hplain c hc).1) _
  show Reading.mk _ _ _ _ = Reading.mk _ _ _ _
  exact congr (congr (congrArg₂ Reading.mk hcontent (congrArg assemble hcalls)) hfinish) husage

/-- The two deliveries of a message are read alike exactly if it uses no tool and its token counts
fit. -/
theorem readAlike_iff {env : ProviderEnv} {a : Answer} (h : a.Pieces env.render) :
    ReadAlike id (parseResponse env a.body) (streamChunks env.now 0 a.events) ↔
      (∀ p ∈ a.blocks, p.1.isText = true) ∧ a.Fits := by
  obtain ⟨hresponse, hoverflow⟩ := parseResponse_body env a
  constructor
  · rintro ⟨r, chunks, hr, hchunks, hread⟩
    by_cases hfits : a.Fits
    · obtain ⟨r', hr', hreading⟩ := hresponse hfits
      obtain rfl := Except.ok.inj (Except.ok.inj (hr.symm.trans hr'))
      rw [streamChunks_events env.now hfits] at hchunks
      obtain rfl := (List.map_inj_right fun _ _ h ↦ Except.ok.inj h).1 (Except.ok.inj hchunks)
      rw [id, id, hreading, readChunks_events h] at hread
      exact ⟨(blocksCalls_map env.render a.blocks).1 (congrArg Reading.toolCalls hread), hfits⟩
    · rw [hoverflow hfits] at hr
      cases hr
  · rintro ⟨htext, hfits⟩
    obtain ⟨r, hr, hreading⟩ := hresponse hfits
    refine ⟨r, _, hr, streamChunks_events env.now hfits, ?_⟩
    rw [id, id, hreading, readChunks_events h, Answer.reading,
      (blocksCalls_map env.render a.blocks).2 htext]

end Anthropic

end Himadri
