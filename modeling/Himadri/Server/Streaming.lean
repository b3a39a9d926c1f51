import Himadri.Gateway.Stream

/-!
# Streamed responses

The wrapper of `route_stream` and the body that `sse_response` builds over it, under any polls and a
drop at any point. Whatever the client does, the wrapper yields the provider's items in order and
accounts for the request once, by the usage and the error last seen, at the end of the stream or
when it is dropped. A body that is read to its end is the payloads before the first error, one event
for the error, and one `[DONE]` (`streamed_once_and_faithfully`).
-/

namespace Himadri

/-- A poll by the client: the stream inside is pending, or ready by then. -/
inductive StreamPoll
  | pending
  | ready (elapsedMs : ℕ)

/-- The polls that find the stream ready. -/
def readyPolls : List StreamPoll → ℕ
  | [] => 0
  | .pending :: polls => readyPolls polls
  | .ready _ :: polls => readyPolls polls + 1

/-! ### The wrapper -/

/-- What ready polls return, and what is given to `record_accounting`. -/
structure StreamLife where
  results : List (Option (Except ProviderError StreamChunk))
  accounted : List AccountOutcome

/-- The wrapper is polled and then dropped. -/
def GuardrailStream.life (dropMs : ℕ) : List StreamPoll → GuardrailStream → StreamLife
  | [], stream => ⟨[], (stream.recorder.finish dropMs).2⟩
  | .pending :: polls, stream => life dropMs polls stream
  | .ready elapsedMs :: polls, stream =>
    let rest := life dropMs polls (stream.pollNext elapsedMs).1
    ⟨(stream.pollNext elapsedMs).2.1 :: rest.results,
      (stream.pollNext elapsedMs).2.2 ++ rest.accounted⟩

/-! ### The body -/

/-- The event of an error. -/
def interruptedEvent : String :=
  "\x7b\"error\":\x7b\"message\":\"stream interrupted by upstream error\"," ++
    "\"type\":\"gateway_error\"\x7d\x7d"

/-- The body of `sse_response`: the scan over the wrapper, until the chain drops it for the one
event that follows. -/
structure SseBody where
  inner : Option GuardrailStream
  errored : Bool

/-- A poll of the body: the body afterwards, the data of the event it sends, the item the wrapper
yielded, and what is given to `record_accounting`. -/
structure SsePoll where
  body : SseBody
  event : Option String
  yielded : Option (Except ProviderError StreamChunk)
  accounted : List AccountOutcome

/-- The life of a body: the events sent, the items the wrapper yielded, what is given to
`record_accounting`, and whether the body was read to its end. -/
structure SseLife where
  events : List String
  seen : ProviderStream
  accounted : List AccountOutcome
  ended : Bool

namespace SseBody

/-- The scan has ended: the wrapper is dropped, and the one event of the chain is sent. -/
def finish (elapsedMs : ℕ) (stream : GuardrailStream) (errored : Bool)
    (yielded : Option (Except ProviderError StreamChunk)) (accounted : List AccountOutcome) :
    SsePoll :=
  ⟨⟨none, errored⟩, some "[DONE]", yielded, accounted ++ (stream.recorder.finish elapsedMs).2⟩

/-- A poll that finds the stream ready, with `payload` what the handler makes of a chunk. -/
def poll (payload : StreamChunk → Except ProviderError String) (elapsedMs : ℕ) (body : SseBody) :
    SsePoll :=
  match body.inner with
  | none => ⟨body, none, none, []⟩
  | some stream =>
    match stream.pollNext elapsedMs with
    | (next, none, accounted) => finish elapsedMs next body.errored none accounted
    | (next, some item, accounted) =>
      -- the item after an error ends the scan
      if body.errored then finish elapsedMs next true (some item) accounted
      else
        match item.bind payload with
        | .ok data => ⟨⟨some next, false⟩, some data, some item, accounted⟩
        | .error _ => ⟨⟨some next, true⟩, some interruptedEvent, some item, accounted⟩

/-- The body is polled and then dropped. -/
def life (payload : StreamChunk → Except ProviderError String) (dropMs : ℕ) :
    List StreamPoll → SseBody → SseLife
  | [], body =>
    ⟨[], [], (body.inner.map fun stream ↦ (stream.recorder.finish dropMs).2).getD [],
      body.inner.isNone⟩
  | .pending :: polls, body => life payload dropMs polls body
  | .ready elapsedMs :: polls, body =>
    let now := body.poll payload elapsedMs
    let rest := life payload dropMs polls now.body
    ⟨now.event.toList ++ rest.events, now.yielded.toList ++ rest.seen,
      now.accounted ++ rest.accounted, rest.ended⟩

end SseBody

/-! ### What the client gets -/

/-- The usage of the last chunk that carries one. -/
def lastUsage (items : ProviderStream) : Option Usage :=
  items.reverse.findSome? fun item ↦ item.toOption.bind (·.usage)

/-- The message of an item that is an error. -/
def errorText : Except ProviderError StreamChunk → Option String
  | .ok _ => none
  | .error e => some e.display

/-- The last error. -/
def lastError (items : ProviderStream) : Option String := items.reverse.findSome? errorText

/-- An item that is no error. -/
def isPayload : Except ProviderError String → Bool
  | .ok _ => true
  | .error _ => false

/-- The payloads before the first error, and one event where there is an error. -/
def payloadEvents (items : List (Except ProviderError String)) : List String :=
  (items.takeWhile isPayload).filterMap (·.toOption) ++
    if items.all isPayload then [] else [interruptedEvent]

section Steps

variable {stream : GuardrailStream} {elapsedMs : ℕ}

/-- The recorder after an item. -/
def StreamUsageRecorder.observe (recorder : StreamUsageRecorder) :
    Except ProviderError StreamChunk → StreamUsageRecorder
  | .ok chunk => recorder.observeChunk chunk
  | .error e => recorder.observeError e

/-- What the recorder would account for. -/
def StreamUsageRecorder.outcome (recorder : StreamUsageRecorder) (seen : ProviderStream)
    (elapsedMs : ℕ) : AccountOutcome :=
  ⟨recorder.provider, recorder.model, recorder.apiKeyId, (lastUsage seen).or recorder.usage,
    (lastError seen).or recorder.error, elapsedMs⟩

namespace StreamUsageRecorder

variable {recorder : StreamUsageRecorder}

theorem outcome_cons (item : Except ProviderError StreamChunk) (seen : ProviderStream) :
    recorder.outcome (item :: seen) elapsedMs = (recorder.observe item).outcome seen elapsedMs := by
  rcases item with e | chunk
  · simp [outcome, observe, observeError, lastUsage, lastError, List.findSome?_append, errorText,
      Except.toOption]
  · simp [outcome, observe, observeChunk, lastUsage, lastError, List.findSome?_append, errorText,
      Except.toOption, Option.or_assoc]

theorem recorded_observe (item : Except ProviderError StreamChunk) :
    (recorder.observe item).recorded = recorder.recorded := by
  rcases item with e | chunk
  · rfl
  · rfl

theorem finish_of_recorded (h : recorder.recorded = true) :
    recorder.finish elapsedMs = (recorder, []) := if_pos h

theorem finish_snd (h : recorder.recorded = false) :
    (recorder.finish elapsedMs).2 = [recorder.outcome [] elapsedMs] := by
  rw [finish, if_neg (by rw [h]; exact Bool.false_ne_true)]
  rfl

theorem recorded_finish : (recorder.finish elapsedMs).1.recorded = true := by
  rw [finish]
  split_ifs with h
  · exact h
  · rfl

end StreamUsageRecorder

/-- The wrapper at the end of the stream. -/
theorem pollNext_of_nil (elapsedMs : ℕ) (h : stream.inner = []) : ∃ next,
    stream.pollNext elapsedMs = (next, none, (stream.recorder.finish elapsedMs).2) ∧
      next.inner = [] ∧ next.recorder = (stream.recorder.finish elapsedMs).1 := by
  rw [GuardrailStream.pollNext, h]
  exact ⟨_, rfl, rfl, rfl⟩

/-- The wrapper at an item. -/
theorem pollNext_of_cons (elapsedMs : ℕ) {item : Except ProviderError StreamChunk}
    {rest : ProviderStream} (h : stream.inner = item :: rest) : ∃ next,
    stream.pollNext elapsedMs = (next, some item, []) ∧ next.inner = rest ∧
      next.recorder = stream.recorder.observe item := by
  rw [GuardrailStream.pollNext, h]
  rcases item with e | chunk
  · exact ⟨_, rfl, rfl, rfl⟩
  · exact ⟨_, rfl, rfl, rfl⟩

end Steps

namespace GuardrailStream

variable {dropMs : ℕ}

/-- Each ready poll returns the provider's next item. -/
theorem results_life (dropMs : ℕ) (polls : List StreamPoll) (stream : GuardrailStream) :
    (stream.life dropMs polls).results =
      (List.range (readyPolls polls)).map (stream.inner[·]?) := by
  induction polls generalizing stream with
  | nil => rfl
  | cons p polls ih =>
    rcases p with - | elapsedMs
    · exact ih stream
    · rw [readyPolls, List.range_succ_eq_map, List.map_cons, List.map_map, life, ih]
      rcases hinner : stream.inner with - | ⟨item, rest⟩
      · obtain ⟨next, hpoll, hnext, -⟩ := pollNext_of_nil elapsedMs hinner
        rw [hpoll, hnext]
        rfl
      · obtain ⟨next, hpoll, hnext, -⟩ := pollNext_of_cons elapsedMs hinner
        rw [hpoll, hnext]
        rfl

/-- A wrapper that has accounted accounts for nothing more. -/
theorem life_of_recorded (polls : List StreamPoll) (stream : GuardrailStream)
    (h : stream.recorder.recorded = true) : (stream.life dropMs polls).accounted = [] := by
  induction polls generalizing stream with
  | nil => rw [life, StreamUsageRecorder.finish_of_recorded h]
  | cons p polls ih =>
    rcases p with - | elapsedMs
    · exact ih stream h
    · rw [life]
      rcases hinner : stream.inner with - | ⟨item, rest⟩
      · obtain ⟨next, hpoll, -, hrecorder⟩ := pollNext_of_nil elapsedMs hinner
        rw [StreamUsageRecorder.finish_of_recorded h] at hpoll hrecorder
        rw [hpoll]
        exact ih next (by rw [hrecorder]; exact h)
      · obtain ⟨next, hpoll, -, hrecorder⟩ := pollNext_of_cons elapsedMs hinner
        rw [hpoll]
        exact ih next (by rw [hrecorder, StreamUsageRecorder.recorded_observe]; exact h)

/-- The wrapper accounts once, by what it has seen so far. -/
theorem accounted_life (dropMs : ℕ) (polls : List StreamPoll) (stream : GuardrailStream)
    (h : stream.recorder.recorded = false) : ∃ elapsedMs,
    (stream.life dropMs polls).accounted =
      [stream.recorder.outcome (stream.inner.take (readyPolls polls)) elapsedMs] := by
  induction polls generalizing stream with
  | nil => exact ⟨dropMs, StreamUsageRecorder.finish_snd h⟩
  | cons p polls ih =>
    rcases p with - | elapsedMs
    · exact ih stream h
    · rw [life, readyPolls]
      rcases hinner : stream.inner with - | ⟨item, rest⟩
      · -- the end: what follows, the drop included, finds it recorded
        obtain ⟨next, hpoll, -, hrecorder⟩ := pollNext_of_nil elapsedMs hinner
        have hrecorded : next.recorder.recorded = true := by
          rw [hrecorder]
          exact StreamUsageRecorder.recorded_finish
        refine ⟨elapsedMs, ?_⟩
        rw [hpoll]
        simp only
        rw [life_of_recorded polls next hrecorded, List.append_nil,
          StreamUsageRecorder.finish_snd h, List.take_nil]
      · obtain ⟨next, hpoll, hnext, hrecorder⟩ := pollNext_of_cons elapsedMs hinner
        obtain ⟨ms, hms⟩ := ih next (by
          rw [hrecorder, StreamUsageRecorder.recorded_observe]
          exact h)
        refine ⟨ms, ?_⟩
        rw [hpoll, List.take_succ_cons, StreamUsageRecorder.outcome_cons, ← hrecorder, ← hnext]
        exact hms

end GuardrailStream

namespace SseBody

variable (payload : StreamChunk → Except ProviderError String) (dropMs : ℕ)

theorem payloadEvents_ok (data : String) (rest : List (Except ProviderError String)) :
    payloadEvents (.ok data :: rest) = data :: payloadEvents rest := by
  rw [payloadEvents, List.takeWhile_cons_of_pos rfl]
  rfl

theorem payloadEvents_error (e : ProviderError) (rest : List (Except ProviderError String)) :
    payloadEvents (.error e :: rest) = [interruptedEvent] := by
  simp [payloadEvents, isPayload]

/-- What a body has yet to send. -/
def pending (body : SseBody) : List String :=
  match body.inner with
  | none => []
  | some stream =>
    (if body.errored then [] else payloadEvents (stream.inner.map (·.bind payload))) ++ ["[DONE]"]

/-- A step of the body: it goes on with the next of the wrapper, by the item yielded, or it drops
the wrapper, which has accounted by then. -/
theorem poll_cases (elapsedMs : ℕ) (stream : GuardrailStream) (errored : Bool) :
    (∃ next item event flag, stream.inner = item :: next.inner ∧
      next.recorder = stream.recorder.observe item ∧
      poll payload elapsedMs ⟨some stream, errored⟩ =
        ⟨⟨some next, flag⟩, some event, some item, []⟩ ∧
      pending payload ⟨some stream, errored⟩ = event :: pending payload ⟨some next, flag⟩) ∨
    ∃ flag seen, seen.toList <+: stream.inner ∧
      pending payload ⟨some stream, errored⟩ = ["[DONE]"] ∧
      (stream.recorder.recorded = false →
        poll payload elapsedMs ⟨some stream, errored⟩ = ⟨⟨none, flag⟩, some "[DONE]", seen,
          [stream.recorder.outcome seen.toList elapsedMs]⟩) := by
  rcases hinner : stream.inner with - | ⟨item, rest⟩
  · obtain ⟨next, hpoll, -, hrecorder⟩ := pollNext_of_nil elapsedMs hinner
    refine .inr ⟨errored, none, List.prefix_rfl, ?_, fun h ↦ ?_⟩
    · rw [pending]
      simp only
      rw [hinner]
      rcases errored with - | -
      · rfl
      · rfl
    · rw [poll]
      simp only
      rw [hpoll]
      simp only
      rw [finish, hrecorder, StreamUsageRecorder.finish_of_recorded
        StreamUsageRecorder.recorded_finish, List.append_nil, StreamUsageRecorder.finish_snd h]
      rfl
  · obtain ⟨next, hpoll, hnext, hrecorder⟩ := pollNext_of_cons elapsedMs hinner
    rcases errored with - | -
    · rcases hdata : item.bind payload with e | data
      · refine .inl ⟨next, item, interruptedEvent, true, by rw [hnext], hrecorder, ?_, ?_⟩
        · rw [poll]
          simp only
          rw [hpoll]
          simp only
          rw [if_neg Bool.false_ne_true, hdata]
        · rw [pending, pending]
          simp only
          rw [hinner, List.map_cons, hdata, payloadEvents_error, if_neg Bool.false_ne_true]
          rfl
      · refine .inl ⟨next, item, data, false, by rw [hnext], hrecorder, ?_, ?_⟩
        · rw [poll]
          simp only
          rw [hpoll]
          simp only
          rw [if_neg Bool.false_ne_true, hdata]
        · rw [pending, pending]
          simp only
          rw [hinner, hnext, List.map_cons, hdata, payloadEvents_ok, if_neg Bool.false_ne_true]
          rfl
    · refine .inr ⟨true, some item, ⟨rest, rfl⟩, rfl, fun h ↦ ?_⟩
      have hnew : next.recorder.recorded = false := by
        rw [hrecorder, StreamUsageRecorder.recorded_observe]
        exact h
      rw [poll]
      simp only
      rw [hpoll]
      simp only
      rw [if_pos trivial, finish, List.nil_append, StreamUsageRecorder.finish_snd hnew, hrecorder,
        ← StreamUsageRecorder.outcome_cons]
      rfl

/-- Nothing comes of a body that was read to its end. -/
theorem life_of_none (polls : List StreamPoll) (errored : Bool) :
    life payload dropMs polls ⟨none, errored⟩ = ⟨[], [], [], true⟩ := by
  induction polls with
  | nil => rfl
  | cons p polls ih =>
    rcases p with - | elapsedMs
    · exact ih
    · have hpoll : poll payload elapsedMs ⟨none, errored⟩ = ⟨⟨none, errored⟩, none, none, []⟩ := rfl
      rw [life, hpoll, ih]
      rfl

/-- A body: the wrapper in it yields the provider's items in order, and accounts once for those it
has yielded. What is sent is what was pending, from its start, and all of it where the body is read
to its end, as it is by as many ready polls as there are items and one more. -/
theorem life_spec (polls : List StreamPoll) (stream : GuardrailStream) (errored : Bool)
    (h : stream.recorder.recorded = false) :
    let life := life payload dropMs polls ⟨some stream, errored⟩
    life.seen <+: stream.inner ∧
      (∃ elapsedMs, life.accounted = [stream.recorder.outcome life.seen elapsedMs]) ∧
      (life.ended = true → life.events = pending payload ⟨some stream, errored⟩) ∧
      (stream.inner.length < readyPolls polls → life.ended = true) := by
  induction polls generalizing stream errored with
  | nil =>
    refine ⟨List.nil_prefix, ⟨dropMs, StreamUsageRecorder.finish_snd h⟩, fun hended ↦ ?_,
      fun hlt ↦ ?_⟩
    · cases hended
    · exact absurd hlt (Nat.not_lt_zero _)
  | cons p polls ih =>
    rcases p with - | elapsedMs
    · exact ih stream errored h
    rcases poll_cases payload elapsedMs stream errored with
      ⟨next, item, event, flag, hinner, hrecorder, hpoll, hpending⟩ |
      ⟨flag, seen, hseen, hpending, hpoll⟩
    · obtain ⟨hbefore, ⟨ms, hms⟩, hevents, hended⟩ := ih next flag (by
        rw [hrecorder, StreamUsageRecorder.recorded_observe]
        exact h)
      rw [life, hpoll]
      refine ⟨?_, ⟨ms, ?_⟩, fun hend ↦ ?_, fun hlt ↦ ?_⟩
      · rw [hinner]
        exact List.cons_prefix_cons.2 ⟨rfl, hbefore⟩
      · rw [show ∀ seen, (some item).toList ++ seen = item :: seen from fun _ ↦ rfl,
          StreamUsageRecorder.outcome_cons, ← hrecorder]
        exact hms
      · rw [hpending]
        exact congrArg (event :: ·) (hevents hend)
      · rw [hinner, List.length_cons, readyPolls] at hlt
        exact hended (by omega)
    · rw [life, hpoll h]
      simp only
      rw [life_of_none]
      refine ⟨?_, ⟨elapsedMs, ?_⟩, fun _ ↦ hpending.symm, fun _ ↦ rfl⟩
      · rwa [List.append_nil]
      · rw [List.append_nil, List.append_nil]

end SseBody

/-- A streamed request from the provider to the client. Of the wrapper: whatever polls it gets until
it is dropped, it yields the provider's items in order, and it accounts once, by the last usage and
the last error it has seen. Of the body over it, which the client polls and drops in its place: the
same holds of the wrapper inside, enough polls read the body to its end, and what a body read to its
end has sent is the payloads before the first error, one event for the error, and one `[DONE]`. -/
theorem streamed_once_and_faithfully (auth : Option AuthContext) (request : ChatCompletionRequest)
    (target : Target) (items : ProviderStream) (polls : List StreamPoll) (dropMs : ℕ)
    (payload : StreamChunk → Except ProviderError String) :
    let stream := Gateway.wrapStream auth request target items
    let wrapper := stream.life dropMs polls
    let body := SseBody.life payload dropMs polls ⟨some stream, false⟩
    let accounting (seen : ProviderStream) (elapsedMs : ℕ) : List AccountOutcome :=
      [⟨target.provider, request.model, auth.bind (·.keyId), lastUsage seen, lastError seen,
        elapsedMs⟩]
    wrapper.results = (List.range (readyPolls polls)).map (items[·]?) ∧
      (∃ elapsedMs, wrapper.accounted = accounting (items.take (readyPolls polls)) elapsedMs) ∧
      body.seen <+: items ∧ (∃ elapsedMs, body.accounted = accounting body.seen elapsedMs) ∧
      (items.length < readyPolls polls → body.ended = true) ∧
      (body.ended = true →
        body.events = payloadEvents (items.map (·.bind payload)) ++ ["[DONE]"]) := by
  intro stream wrapper body accounting
  have haccounting (seen : ProviderStream) (elapsedMs : ℕ) :
      [stream.recorder.outcome seen elapsedMs] = accounting seen elapsedMs := by
    simp [stream, accounting, Gateway.wrapStream, StreamUsageRecorder.outcome]
  obtain ⟨ms, hms⟩ := GuardrailStream.accounted_life dropMs polls stream rfl
  obtain ⟨hseen, ⟨ms', hms'⟩, hevents, hended⟩ :=
    SseBody.life_spec payload dropMs polls stream false rfl
  exact ⟨GuardrailStream.results_life dropMs polls stream, ⟨ms, hms.trans (haccounting _ _)⟩, hseen,
    ⟨ms', hms'.trans (haccounting _ _)⟩, hended, hevents⟩

end Himadri
