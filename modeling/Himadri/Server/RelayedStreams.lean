import Himadri.Provider.Exchange
import Himadri.Provider.Registry
import Himadri.Server.Streaming

/-!
# A stream behind a gateway

The events that the chat endpoint streams, read by the OpenAI-compatible client of another gateway,
whatever chunks they arrive in and however often the connection is kept alive in between.

Chunks arrive as they left, up to an error. The event that tells of an error is a chunk without
choices to the client, so that to the other gateway the stream has come to its end: it accounts for
it without an error, and tells its own client of none (`interruption_lost`).
-/

namespace Himadri

/-! ### Frames -/

/-- What `Sse` sends: an event, or the comment that keeps the connection alive. A space may follow
the colon. -/
inductive SseFrame
  | event (spaced : Bool) (data : String)
  | ping (spaced : Bool)

namespace SseFrame

/-- The space after a colon. -/
def gap (spaced : Bool) : String := if spaced then " " else ""

/-- The line of the frame that is not blank. -/
def line : SseFrame → String
  | .event spaced data => "data:" ++ (gap spaced ++ data)
  | .ping spaced => ":" ++ (gap spaced ++ "ping")

/-- The data of an event. -/
def data? : SseFrame → Option String
  | .event _ data => some data
  | .ping _ => none

end SseFrame

/-- What is sent: after each line a blank one. -/
def sseText (frames : List SseFrame) : List Char :=
  frames.flatMap fun frame ↦ frame.line.toList ++ ['\n', '\n']

/-- A payload on one line, with no whitespace at its ends. -/
structure OnOneLine (data : String) : Prop where
  line : '\n' ∉ data.toList
  start : ∃ c, data.toList.head? = some c ∧ Text.isWhitespace c = false
  finish : ∃ c, data.toList.getLast? = some c ∧ Text.isWhitespace c = false

section Frames

variable {data : String} {frame : SseFrame} {lines : List String}

theorem SseFrame.toList_gap (spaced : Bool) :
    (SseFrame.gap spaced).toList = if spaced then [' '] else [] := by
  rcases spaced with - | -
  · rfl
  · rfl

/-- The space after the colon is not read. -/
theorem trimStart_gap (h : OnOneLine data) (spaced : Bool) :
    trimStart (SseFrame.gap spaced ++ data) = data := by
  obtain ⟨c, hc, hwhite⟩ := h.start
  have hdata : data.toList.dropWhile Text.isWhitespace = data.toList :=
    Text.dropWhile_of_head? fun c' hc' ↦ by rwa [Option.some.inj (hc'.symm.trans hc)]
  rw [trimStart, String.toList_append, SseFrame.toList_gap]
  rcases spaced with - | -
  · rw [if_neg Bool.false_ne_true, List.nil_append, hdata, String.ofList_toList]
  · have hspace : Text.isWhitespace ' ' = true := rfl
    rw [if_pos rfl, List.singleton_append, List.dropWhile_cons_of_pos hspace, hdata,
      String.ofList_toList]

theorem trim_event (h : OnOneLine data) (spaced : Bool) :
    Text.trim (SseFrame.event spaced data).line = (SseFrame.event spaced data).line := by
  obtain ⟨c, hc, hwhite⟩ := h.finish
  have htext : (SseFrame.event spaced data).line.toList =
      'd' :: ("ata:".toList ++ (SseFrame.gap spaced).toList) ++ data.toList := by
    rw [SseFrame.line, String.toList_append, String.toList_append,
      show "data:".toList = 'd' :: "ata:".toList from rfl, List.cons_append, List.cons_append,
      List.append_assoc]
  refine Text.trim_eq_self (fun c' hc' ↦ ?_) fun c' hc' ↦ ?_
  · rw [htext] at hc'
    obtain rfl := Option.some.inj hc'
    rfl
  · rw [htext, List.getLast?_append, hc] at hc'
    obtain rfl := Option.some.inj hc'
    exact hwhite

/-- What is read of a frame and of the lines after it. -/
def frameThen (frame : SseFrame) (read : List SseEvent × Option (Option String)) :
    List SseEvent × Option (Option String) :=
  match frame.data? with
  | none => read
  | some data => if data = "[DONE]" then ([], none) else (⟨none, data⟩ :: read.1, read.2)

theorem readLines_blank (lines : List String) :
    readLines none ("" :: lines) = readLines none lines := by
  rw [readLines]
  rfl

theorem readLines_event (h : OnOneLine data) (spaced : Bool) (lines : List String) :
    readLines none ((SseFrame.event spaced data).line :: "" :: lines) =
      frameThen (.event spaced data) (readLines none lines) := by
  have hdata : Text.stripPrefix (Text.trim (SseFrame.event spaced data).line) "data:" =
      some (SseFrame.gap spaced ++ data) := by
    rw [trim_event h, Text.stripPrefix_eq_some]
    rfl
  have hevent : Text.stripPrefix (Text.trim (SseFrame.event spaced data).line) "event:" = none := by
    rw [Option.eq_none_iff_forall_ne_some]
    intro event hsome
    rw [SseLine.stripPrefix_data_of_event hsome] at hdata
    cases hdata
  have hline : ¬(Text.trim (SseFrame.event spaced data).line).isEmpty = true := fun hblank ↦ by
    rw [SseLine.stripPrefix_of_blank hblank (by decide)] at hdata
    cases hdata
  rw [readLines, if_neg hline, hevent]
  dsimp only
  rw [hdata]
  dsimp only
  rw [trimStart_gap h, readLines_blank]
  rfl

theorem readLines_ping (spaced : Bool) (lines : List String) :
    readLines none ((SseFrame.ping spaced).line :: "" :: lines) =
      frameThen (.ping spaced) (readLines none lines) := by
  have hline : ¬(Text.trim (SseFrame.ping spaced).line).isEmpty = true := by
    rcases spaced with - | - <;> decide +kernel
  have hevent : Text.stripPrefix (Text.trim (SseFrame.ping spaced).line) "event:" = none := by
    rcases spaced with - | - <;> decide +kernel
  have hdata : Text.stripPrefix (Text.trim (SseFrame.ping spaced).line) "data:" = none := by
    rcases spaced with - | - <;> decide +kernel
  rw [readLines, if_neg hline, hevent]
  dsimp only
  rw [hdata]
  exact readLines_blank lines

/-- The line of a frame is one line. -/
theorem notMem_line (h : ∀ data ∈ frame.data?, OnOneLine data) : '\n' ∉ frame.line.toList := by
  rcases frame with ⟨spaced, data⟩ | spaced
  · rw [SseFrame.line, String.toList_append, String.toList_append, SseFrame.toList_gap,
      List.mem_append, List.mem_append, not_or, not_or]
    refine ⟨by decide, ?_, (h data rfl).line⟩
    rcases spaced with - | - <;> decide
  · rcases spaced with - | - <;> decide

/-- The events of a text of frames are their data before the first `[DONE]`. -/
theorem readLines_frames {frames : List SseFrame}
    (h : ∀ frame ∈ frames, ∀ data ∈ frame.data?, OnOneLine data) :
    (readLines none ((Lines.complete '\n' (sseText frames)).map .ofList)).1 =
      ((frames.filterMap SseFrame.data?).takeWhile (· ≠ "[DONE]")).map (⟨none, ·⟩) := by
  induction frames with
  | nil => rfl
  | cons frame frames ih =>
    have hhead := h frame List.mem_cons_self
    have htext : sseText (frame :: frames) =
        frame.line.toList ++ '\n' :: ([] ++ '\n' :: sseText frames) := by
      rw [sseText, List.flatMap_cons, List.append_assoc]
      rfl
    rw [htext, Lines.complete_piece (notMem_line hhead), Lines.complete_piece List.not_mem_nil,
      List.map_cons, List.map_cons, String.ofList_toList]
    have ih := ih fun frame' hmem ↦ h frame' (List.mem_cons_of_mem frame hmem)
    rcases frame with ⟨spaced, data⟩ | spaced
    · rw [show String.ofList [] = "" from rfl, readLines_event (hhead data rfl), frameThen,
        List.filterMap_cons_some (show (SseFrame.event spaced data).data? = some data from rfl)]
      dsimp only [SseFrame.data?]
      by_cases hdone : data = "[DONE]"
      · rw [if_pos hdone, List.takeWhile_cons_of_neg (by simp [hdone])]
        rfl
      · rw [if_neg hdone, List.takeWhile_cons_of_pos (by simp [hdone]), List.map_cons, ← ih]
    · rw [show String.ofList [] = "" from rfl, readLines_ping,
        List.filterMap_cons_none (show (SseFrame.ping spaced).data? = none from rfl)]
      exact ih

end Frames

/-! ### Payloads -/

/-- A value is printed as an object on one line, which reads back. -/
structure Prints (text : JsonText) (render : Json → String) (v : Json) : Prop where
  reads : text.fromStr (render v) = .ok v
  line : '\n' ∉ (render v).toList
  start : (render v).toList.head? = some '{'
  finish : (render v).toList.getLast? = some '}'

/-- What the handler makes of a chunk. -/
def chunkPayload (render : Json → String) (c : StreamChunk) : Except ProviderError String :=
  .ok (render c.json)

/-- The event of an error. -/
def interruptedJson : Json :=
  .object [("error", .object [("message", .string "stream interrupted by upstream error"),
    ("type", .string "gateway_error")])]

/-- The chunk that it is to a client. -/
def silentChunk : StreamChunk where
  id := ""
  object := "chat.completion.chunk"
  created := 0
  model := ""
  choices := []
  usage := none
  systemFingerprint := none

/-- The items that a client of the gateway streams in place of its own. -/
def relayedItems : ProviderStream → ProviderStream
  | [] => []
  | .ok c :: items => .ok c :: relayedItems items
  | .error _ :: _ => [.ok silentChunk]

section Payloads

variable {text : JsonText} {render : Json → String} {items : ProviderStream}

theorem Prints.onOneLine {v : Json} (h : Prints text render v) : OnOneLine (render v) :=
  ⟨h.line, ⟨'{', h.start, by decide⟩, ⟨'}', h.finish, by decide⟩⟩

theorem Prints.ne_done {v : Json} (h : Prints text render v) : render v ≠ "[DONE]" := by
  intro hdone
  have hstart := h.start
  rw [hdone] at hstart
  exact absurd hstart (by decide)

theorem onOneLine_interrupted : OnOneLine interruptedEvent := by
  have hstart : interruptedEvent.toList.head? = some '{' := by decide +kernel
  have hfinish : interruptedEvent.toList.getLast? = some '}' := by decide +kernel
  exact ⟨by decide +kernel, ⟨'{', hstart, by decide⟩, ⟨'}', hfinish, by decide⟩⟩

theorem parseStreamChunk_interrupted (h : text.fromStr interruptedEvent = .ok interruptedJson) :
    Compatible.parseStreamChunk text interruptedEvent = .ok silentChunk := by
  rw [Compatible.parseStreamChunk, h]
  rfl

theorem payloadEvents_chunk (c : StreamChunk) (items : ProviderStream) :
    payloadEvents ((Except.ok c :: items).map (·.bind (chunkPayload render))) =
      render c.json :: payloadEvents (items.map (·.bind (chunkPayload render))) :=
  SseBody.payloadEvents_ok _ _

theorem payloadEvents_failure (e : ProviderError) (items : ProviderStream) :
    payloadEvents ((Except.error e :: items).map (·.bind (chunkPayload render))) =
      [interruptedEvent] :=
  SseBody.payloadEvents_error _ _

theorem mem_payloadEvents
    (hprints : ∀ c, Except.ok c ∈ items → Prints text render c.json) {data : String}
    (hdata : data ∈ payloadEvents (items.map (·.bind (chunkPayload render)))) :
    OnOneLine data ∧ data ≠ "[DONE]" := by
  induction items with
  | nil => cases hdata
  | cons item items ih =>
    rcases item with e | c
    · rw [payloadEvents_failure] at hdata
      obtain rfl := List.mem_singleton.1 hdata
      exact ⟨onOneLine_interrupted, by decide +kernel⟩
    · rw [payloadEvents_chunk] at hdata
      rcases List.mem_cons.1 hdata with rfl | hdata
      · have hc := hprints c List.mem_cons_self
        exact ⟨hc.onOneLine, hc.ne_done⟩
      · exact ih (fun c hc ↦ hprints c (List.mem_cons_of_mem _ hc)) hdata

/-- The payloads read as the relayed items. -/
theorem map_payloadEvents (hregular : ∀ c, Except.ok c ∈ items → c.Regular)
    (hprints : ∀ c, Except.ok c ∈ items → Prints text render c.json)
    (hinterrupted : text.fromStr interruptedEvent = .ok interruptedJson) :
    (payloadEvents (items.map (·.bind (chunkPayload render)))).map
      (Compatible.parseStreamChunk text) = relayedItems items := by
  induction items with
  | nil => rfl
  | cons item items ih =>
    rcases item with e | c
    · rw [payloadEvents_failure, List.map_cons, parseStreamChunk_interrupted hinterrupted]
      rfl
    · rw [payloadEvents_chunk, List.map_cons, Compatible.parseStreamChunk_json (hregular c List.mem_cons_self)
          (hprints c List.mem_cons_self).reads,
        ih (fun c hc ↦ hregular c (List.mem_cons_of_mem _ hc))
          fun c hc ↦ hprints c (List.mem_cons_of_mem _ hc)]
      rfl

/-- No relayed item is an error. -/
theorem exists_of_mem_relayedItems {item : Except ProviderError StreamChunk}
    (h : item ∈ relayedItems items) : ∃ c, item = .ok c := by
  induction items with
  | nil => cases h
  | cons first items ih =>
    rcases first with e | c
    · exact ⟨silentChunk, List.mem_singleton.1 h⟩
    · rcases List.mem_cons.1 h with rfl | h
      · exact ⟨c, rfl⟩
      · exact ih h

theorem lastError_relayed {seen : ProviderStream} (h : seen <+: relayedItems items) :
    lastError seen = none := by
  rw [lastError, List.findSome?_eq_none_iff]
  intro item hitem
  obtain ⟨c, rfl⟩ := exists_of_mem_relayedItems (h.subset (List.mem_reverse.1 hitem))
  rfl

/-- All of a stream without errors is sent. -/
theorem payloadEvents_relayed (items : ProviderStream) :
    payloadEvents ((relayedItems items).map (·.bind (chunkPayload render))) =
      (relayedItems items).filterMap fun item ↦ item.toOption.map fun c ↦ render c.json := by
  induction items with
  | nil => rfl
  | cons first items ih =>
    rcases first with e | c
    · rfl
    · rw [relayedItems, payloadEvents_chunk, ih]
      rfl

end Payloads

/-! ### Streams -/

/-- The body that answers a streamed request, read from a provider's items. -/
def streamedBody (render : Json → String) (auth : Option AuthContext)
    (request : ChatCompletionRequest) (target : Target) (items : ProviderStream) (dropMs : ℕ)
    (polls : List StreamPoll) : SseLife :=
  SseBody.life (chunkPayload render) dropMs polls
    ⟨some (Gateway.wrapStream auth request target items), false⟩

section Streams

variable {text : JsonText} {render : Json → String} {auth : Option AuthContext}
  {request : ChatCompletionRequest} {target : Target} {items : ProviderStream} {dropMs : ℕ}
  {polls : List StreamPoll}

theorem events_streamedBody
    (h : (streamedBody render auth request target items dropMs polls).ended) :
    (streamedBody render auth request target items dropMs polls).events =
      payloadEvents (items.map (·.bind (chunkPayload render))) ++ ["[DONE]"] :=
  (SseBody.life_spec (chunkPayload render) dropMs polls
    (Gateway.wrapStream auth request target items) false rfl).2.2.1 h

/-- The payloads before `[DONE]` are the events of the stream, however it is cut into chunks. -/
theorem sseEvents_frames {frames : List SseFrame} {payloads : List String}
    {chunks : List (List UInt8)}
    (hframes : frames.filterMap SseFrame.data? = payloads ++ ["[DONE]"])
    (hpayloads : ∀ data ∈ payloads, OnOneLine data ∧ data ≠ "[DONE]")
    (hchunks : chunks.flatten = Utf8.encode (sseText frames))
    (hvalid : ∀ bytes ∈ chunks, (Utf8.fromUtf8 bytes).isSome)
    (hlines : ∀ line ∈ (sseText frames).splitOn '\n', lineBytes line ≤ maxSseLineBytes) :
    sseEvents [] none (delivered chunks) = payloads.map fun data ↦ .ok ⟨none, data⟩ := by
  have htext : chunks.flatten = Utf8.bytes (.ofList (sseText frames)) := by
    rw [hchunks, Utf8.bytes, String.toList_ofList]
  have hreceived : received chunks = sseText frames := by
    rw [received_of_valid hvalid htext, String.toList_ofList]
  have honeLine : ∀ frame ∈ frames, ∀ data ∈ frame.data?, OnOneLine data := by
    intro frame hframe data hdata
    have hmem : data ∈ payloads ++ ["[DONE]"] :=
      hframes ▸ List.mem_filterMap.2 ⟨frame, hframe, hdata⟩
    rcases List.mem_append.1 hmem with hmem | hmem
    · exact (hpayloads data hmem).1
    · obtain rfl := List.mem_singleton.1 hmem
      exact ⟨by decide, ⟨'[', by decide, by decide⟩, ⟨']', by decide, by decide⟩⟩
  have htake : (payloads ++ ["[DONE]"]).takeWhile (· ≠ "[DONE]") = payloads := by
    rw [List.takeWhile_append_of_pos fun data hdata ↦ decide_eq_true (hpayloads data hdata).2]
    exact List.append_nil _
  rw [sseEvents_of_received none List.not_mem_nil (by rwa [List.nil_append, hreceived]),
    List.nil_append, hreceived, readLines_frames honeLine, hframes, htake, List.map_map]
  rfl

/-- **An interruption is lost behind a gateway.** A stream of chunks that clients of any vendor make
is answered and read to its end, with the connection kept alive in between as often as it may be,
and arrives in any chunks that cut no character. The other gateway's client reads the chunks before
the first error as they were, and where there is an error a chunk without choices and the end. So
that gateway accounts for no error, and tells its own client of none. -/
theorem interruption_lost
    (hmade : ∀ c, Except.ok c ∈ items → ∃ (client : ProviderClient) (env : ProviderEnv)
      (model : String) (read : JsonText), env.now < UInt64.size ∧ client.Makes read env model c)
    (hprints : ∀ c, Except.ok c ∈ items → Prints text render c.json)
    (hinterrupted : text.fromStr interruptedEvent = .ok interruptedJson)
    (hended : (streamedBody render auth request target items dropMs polls).ended)
    {frames : List SseFrame} (hframes : frames.filterMap SseFrame.data? =
      (streamedBody render auth request target items dropMs polls).events)
    {chunks : List (List UInt8)} (hchunks : chunks.flatten = Utf8.encode (sseText frames))
    (hvalid : ∀ bytes ∈ chunks, (Utf8.fromUtf8 bytes).isSome)
    (hlines : ∀ line ∈ (sseText frames).splitOn '\n', lineBytes line ≤ maxSseLineBytes) :
    Compatible.streamItems text (delivered chunks) = relayedItems items ∧
      ∀ (render' : Json → String) (auth' : Option AuthContext) (request' : ChatCompletionRequest)
        (target' : Target) (dropMs' : ℕ) (polls' : List StreamPoll),
        let body := streamedBody render' auth' request' target'
          (Compatible.streamItems text (delivered chunks)) dropMs' polls'
        (∀ outcome ∈ body.accounted, outcome.error = none) ∧
          (body.ended → body.events = ((relayedItems items).filterMap fun item ↦
            item.toOption.map fun c ↦ render' c.json) ++ ["[DONE]"]) := by
  have hregular : ∀ c, Except.ok c ∈ items → c.Regular := by
    intro c hc
    obtain ⟨client, env, model, read, hnow, hmakes⟩ := hmade c hc
    exact ProviderClient.regular_of_makes hnow hmakes
  have hitems : Compatible.streamItems text (delivered chunks) = relayedItems items := by
    rw [Compatible.streamItems, sseEvents_frames (hframes.trans (events_streamedBody hended))
      (fun data ↦ mem_payloadEvents hprints) hchunks hvalid hlines, List.map_map,
      ← map_payloadEvents hregular hprints hinterrupted]
    rfl
  refine ⟨hitems, fun render' auth' request' target' dropMs' polls' ↦ ?_⟩
  rw [hitems]
  obtain ⟨hseen, ⟨elapsedMs, haccounted⟩, -, -⟩ := SseBody.life_spec (chunkPayload render') dropMs'
    polls' (Gateway.wrapStream auth' request' target' (relayedItems items)) false rfl
  refine ⟨fun outcome houtcome ↦ ?_, fun hend ↦ ?_⟩
  · obtain rfl := List.mem_singleton.1 (haccounted ▸ houtcome)
    show (lastError _).or none = none
    rw [lastError_relayed hseen]
    rfl
  · rw [events_streamedBody hend, payloadEvents_relayed]

end Streams

section Interrupted

/-- A chunk that says hello. -/
def helloChunk : StreamChunk where
  id := "c"
  object := "chat.completion.chunk"
  created := 0
  model := "m"
  choices := [⟨0, ⟨none, some "hello", none⟩, none⟩]
  usage := none
  systemFingerprint := none

/-- The chunk in JSON. -/
def helloText : String :=
  "\x7b\"id\":\"c\",\"object\":\"chat.completion.chunk\",\"created\":0,\"model\":\"m\"," ++
    "\"choices\":[\x7b\"index\":0,\"delta\":\x7b\"content\":\"hello\"\x7d\x7d]\x7d"

/-- What the two payloads read as. -/
def helloReader : JsonText where
  fromStr s := .ok (if s = interruptedEvent then interruptedJson else helloChunk.json)
  why _ := ""

/-- The chunk, a comment, the error, and the end. -/
def helloFrames : List SseFrame :=
  [.event true helloText, .ping true, .event true interruptedEvent, .event true "[DONE]"]

theorem fromStr_helloText : helloReader.fromStr helloText = .ok helloChunk.json := by
  show Except.ok (if helloText = interruptedEvent then _ else _) = _
  rw [if_neg (by decide +kernel)]

theorem fromStr_interrupted : helloReader.fromStr interruptedEvent = .ok interruptedJson := by
  show Except.ok (if interruptedEvent = interruptedEvent then _ else _) = _
  rw [if_pos rfl]

theorem regular_helloChunk : helloChunk.Regular := by
  refine ⟨⟨by decide, fun choice hchoice ↦ ?_, fun u hu ↦ by cases hu⟩, rfl,
    fun choice hchoice ↦ ?_⟩
  · obtain rfl := List.mem_singleton.1 hchoice
    exact ⟨zero_lt_u32, fun calls hcalls ↦ by cases hcalls⟩
  · obtain rfl := List.mem_singleton.1 hchoice
    exact fun h ↦ by cases h

/-- A stream that breaks off after its first chunk arrives as one that ends there. -/
theorem interruption_lost_hello :
    Compatible.streamItems helloReader (delivered [Utf8.encode (sseText helloFrames)]) =
        [.ok helloChunk, .ok silentChunk] ∧
      ∀ outcome ∈ (streamedBody (fun _ ↦ helloText) none (.ofMessages "m" [.user "hi"])
        (.ofProvider "openai") (Compatible.streamItems helloReader
          (delivered [Utf8.encode (sseText helloFrames)])) 9 [.ready 5, .ready 6]).accounted,
        outcome.error = none := by
  let items : ProviderStream := [.ok helloChunk, .error (.network "reset")]
  have hone {c : StreamChunk} (hc : Except.ok c ∈ items) : c = helloChunk := by
    rcases List.mem_cons.1 hc with h | h
    · exact Except.ok.inj h
    · cases List.mem_singleton.1 h
  have hmade : ∀ c, Except.ok c ∈ items → ∃ (client : ProviderClient) (env : ProviderEnv)
      (model : String) (read : JsonText),
        env.now < UInt64.size ∧ client.Makes read env model c := by
    intro c hc
    obtain rfl := hone hc
    exact ⟨.compatible .openai, ⟨0, fun _ ↦ "", fun _ ↦ ""⟩, "m", helloReader, by decide,
      .compatible _ helloText _
        (Compatible.parseStreamChunk_json regular_helloChunk fromStr_helloText)⟩
  have hprints : ∀ c, Except.ok c ∈ items → Prints helloReader (fun _ ↦ helloText) c.json := by
    intro c hc
    obtain rfl := hone hc
    exact ⟨fromStr_helloText, by decide +kernel, by decide +kernel, by decide +kernel⟩
  have hended : (streamedBody (fun _ ↦ helloText) none (.ofMessages "m" [.user "hi"])
      (.ofProvider "openai") items 4 [.ready 1, .pending, .ready 2, .ready 3]).ended := rfl
  have hchunks : [Utf8.encode (sseText helloFrames)].flatten = Utf8.encode (sseText helloFrames) :=
    List.append_nil _
  have hvalid : ∀ bytes ∈ [Utf8.encode (sseText helloFrames)],
      (Utf8.fromUtf8 bytes).isSome = true := by
    intro bytes hbytes
    have hread := Utf8.fromUtf8_bytes (.ofList (sseText helloFrames))
    rw [Utf8.bytes, String.toList_ofList] at hread
    rw [List.mem_singleton.1 hbytes, hread, Option.isSome_some]
  have hshort : ((sseText helloFrames).splitOn '\n').all
      fun line ↦ decide (lineBytes line ≤ maxSseLineBytes) := by decide +kernel
  obtain ⟨hitems, hnext⟩ := interruption_lost hmade hprints fromStr_interrupted hended
    (show helloFrames.filterMap SseFrame.data? = _ from rfl) hchunks hvalid
    fun line hline ↦ of_decide_eq_true (List.all_eq_true.1 hshort line hline)
  exact ⟨hitems, (hnext (fun _ ↦ helloText) none (.ofMessages "m" [.user "hi"])
    (.ofProvider "openai") 9 [.ready 5, .ready 6]).1⟩

end Interrupted

end Himadri
