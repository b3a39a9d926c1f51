import Himadri.Core.Lists
import Himadri.Plugins.Pii

/-!
# The PII request guardrail

`PiiGuardrailPlugin::execute` flattens the strings of a request into slots and texts, runs the
engine over the texts, and writes the new texts back by index. In every mode the plugin does what
the mode says, and where the engine fails the request stays as it was (`execute_spec`).
-/

namespace Himadri

/-- `PiiMode`. -/
inductive PiiMode
  | redact
  | block
  | observe
  deriving DecidableEq

/-- `PiiMode::as_str`. -/
def PiiMode.asStr : PiiMode → String
  | .redact => "redact"
  | .block => "block"
  | .observe => "observe"

/-- `PiiGuardrailSettings`. -/
structure PiiGuardrailSettings where
  mode : PiiMode
  options : RedactOptions
  applyTo : List Role
  scanToolArguments : Bool
  failOpen : Bool

/-- `Slot`. -/
inductive Slot
  | content (msg : ℕ) (part : Option ℕ)
  | toolArg (msg call : ℕ)

/-- `PiiGuardrailPlugin`. -/
structure PiiGuardrailPlugin where
  engine : PiiEngine
  /-- `effective_settings`. -/
  settings : PluginContext → Option PiiGuardrailSettings
  inlineLimitBytes : ℕ

/-! ### Slots and texts -/

/-- A string to scan, unless it is empty. -/
def toScan (s : String) : List String := if s.isEmpty then [] else [s]

/-- The text of a part. -/
def partText : ContentPart → List String
  | .text s => toScan s
  | .imageUrl _ _ => []

/-- The slots of a message's content. -/
def contentSlots (msg : ℕ) : Option MessageContent → List (Slot × String)
  | some (.text s) => (toScan s).map (.content msg none, ·)
  | some (.parts parts) =>
    parts.zipIdx.flatMap fun p ↦ (partText p.1).map (.content msg (some p.2), ·)
  | none => []

/-- The slots of a message's tool calls. -/
def toolSlots (msg : ℕ) (calls : List ToolCall) : List (Slot × String) :=
  calls.zipIdx.flatMap fun c ↦ (toScan c.1.arguments).map (.toolArg msg c.2, ·)

/-- The slots of a message. -/
def messageSlots (settings : PiiGuardrailSettings) (m : Message × ℕ) : List (Slot × String) :=
  if settings.applyTo.contains m.1.role then
    contentSlots m.2 m.1.content ++
      (if settings.scanToolArguments then toolSlots m.2 (m.1.toolCalls.getD []) else [])
  else []

/-- The slots of the messages, each with its text. -/
def foundSlots (settings : PiiGuardrailSettings) (messages : List Message) :
    List (Slot × String) :=
  messages.zipIdx.flatMap (messageSlots settings)

/-- `collect_slots`. -/
def collectSlots (settings : PiiGuardrailSettings) (ctx : PluginContext) :
    List Slot × List String :=
  let found := foundSlots settings ctx.request.messages
  (found.map Prod.fst, found.map Prod.snd)

/-- The message of a slot. -/
def Slot.msg : Slot → ℕ
  | .content msg _ => msg
  | .toolArg msg _ => msg

/-- A new text in a text part. -/
def setText (newText : String) : ContentPart → ContentPart
  | .text _ => .text newText
  | .imageUrl url detail => .imageUrl url detail

/-- A new text in the slot's place of its message. -/
def Slot.write (newText : String) (m : Message) : Slot → Message
  | .content _ none => { m with content := some (.text newText) }
  | .content _ (some part) =>
    match m.content with
    | some (.parts parts) =>
      { m with content := some (.parts (parts.modify part (setText newText))) }
    | _ => m
  | .toolArg _ call =>
    match m.toolCalls with
    | some calls =>
      { m with
        toolCalls := some (calls.modify call fun c ↦ { c with arguments := newText }) }
    | none => m

/-- `write_back`. -/
def writeBack (messages : List Message) (slot : Slot) (newText : String) : List Message :=
  messages.modify slot.msg fun m ↦ slot.write newText m

/-- The loop over the slots and the texts they get, if any. -/
def writeAll (messages : List Message) (slots : List Slot) (rewritten : List (Option String)) :
    List Message :=
  (slots.zip rewritten).foldl (fun messages e ↦ e.2.elim messages (writeBack messages e.1)) messages

/-! ### The engine -/

/-- One turn of the loop of `run_engine`: the text's replacement, and what was found. -/
def runText (engine : PiiEngine) (opts : RedactOptions) (mode : PiiMode) (text : String) :
    Except PiiError (Option String × List (String × UInt32)) :=
  match mode with
  | .redact =>
    (engine.redact text opts).map fun out ↦
      (if out.replaced.isEmpty then none else some out.text, out.replaced)
  | .block | .observe => (engine.scan text opts).map fun hits ↦ (none, hitCounts hits)

/-- `run_engine`, from the counts so far on. -/
def runEngine (engine : PiiEngine) (opts : RedactOptions) (mode : PiiMode) :
    List String → EntityCounts → Except PiiError (List (Option String) × EntityCounts)
  | [], counts => .ok ([], counts)
  | text :: texts, counts =>
    match runText engine opts mode text with
    | .error e => .error e
    | .ok (newText, found) =>
      (runEngine engine opts mode texts (counts.addAll found)).map fun r ↦ (newText :: r.1, r.2)

/-- `engine_error`. -/
def engineError (failOpen : Bool) (e : PiiError) : Except PluginError Unit :=
  if failOpen then .ok () else .error (.internal ("PII guardrail failed: " ++ e.display))

/-- What is kept of the counts in the metadata. -/
def piiMetadata (mode : PiiMode) (counts : EntityCounts) : Json :=
  .object [("action", .string mode.asStr),
    ("entities", .object (counts.map fun c ↦ (c.1, .number (.posInt c.2.toNat))))]

/-- The call of `run_engine`. -/
def PiiGuardrailPlugin.run (plugin : PiiGuardrailPlugin) (settings : PiiGuardrailSettings)
    (texts : List String) : Except PiiError (List (Option String) × EntityCounts) :=
  if plugin.inlineLimitBytes < texts.foldl (fun bytes text ↦ bytes + text.utf8ByteSize) 0 then
    -- on the blocking pool, whose task is awaited
    runEngine plugin.engine settings.options settings.mode texts []
  else runEngine plugin.engine settings.options settings.mode texts []

/-- The rest of `execute`. -/
def PiiGuardrailSettings.conclude (settings : PiiGuardrailSettings) (ctx : PluginContext)
    (slots : List Slot) :
    Except PiiError (List (Option String) × EntityCounts) → PluginContext × Except PluginError Unit
  | .error e => (ctx, engineError settings.failOpen e)
  | .ok (rewritten, counts) =>
    if counts.isEmpty then (ctx, .ok ())
    else
      let ctx :=
        { ctx with
          metadata := ctx.metadata.insert "guardrails.pii" (piiMetadata settings.mode counts) }
      match settings.mode with
      | .redact =>
        ({ ctx with
            request :=
              { ctx.request with messages := writeAll ctx.request.messages slots rewritten } },
          .ok ())
      | .block =>
        (ctx, .error (.rejected "pii-guardrail"
          ("PII detected: " ++ ", ".intercalate (counts.map Prod.fst)) .badRequest))
      | .observe => (ctx, .ok ())

/-- `execute`. -/
def PiiGuardrailPlugin.execute (plugin : PiiGuardrailPlugin) (ctx : PluginContext) :
    PluginContext × Except PluginError Unit :=
  match plugin.settings ctx with
  | none => (ctx, .ok ())
  | some settings =>
    let (slots, texts) := collectSlots settings ctx
    if texts.isEmpty then (ctx, .ok ())
    else settings.conclude ctx slots (plugin.run settings texts)

/-! ### What the modes say -/

/-- A string of a message that is scanned: not empty, and its text, the text of a part of it, or
the arguments of a tool call. -/
def ScannedIn (settings : PiiGuardrailSettings) (m : Message) (s : String) : Prop :=
  s ≠ "" ∧
    (m.content = some (.text s) ∨
      (∃ parts, m.content = some (.parts parts) ∧ ContentPart.text s ∈ parts) ∨
      settings.scanToolArguments ∧
        ∃ calls, m.toolCalls = some calls ∧ ∃ c ∈ calls, c.arguments = s)

/-- A string of a request that is scanned. -/
def Scanned (settings : PiiGuardrailSettings) (request : ChatCompletionRequest) (s : String) :
    Prop :=
  ∃ m ∈ request.messages, m.role ∈ settings.applyTo ∧ ScannedIn settings m s

/-- The engine's redaction of a string, where it replaces something. -/
def redaction (engine : PiiEngine) (opts : RedactOptions) (s : String) : String :=
  match engine.redact s opts with
  | .ok out => if s.isEmpty || out.replaced.isEmpty then s else out.text
  | .error _ => s

/-- A part with its text replaced. -/
def ContentPart.mapText (f : String → String) : ContentPart → ContentPart
  | .text s => .text (f s)
  | .imageUrl url detail => .imageUrl url detail

/-- A content with its texts replaced. -/
def MessageContent.mapText (f : String → String) : MessageContent → MessageContent
  | .text s => .text (f s)
  | .parts ps => .parts (ps.map (·.mapText f))

/-- A message with the strings that are scanned replaced, and nothing else. -/
def mapScanned (settings : PiiGuardrailSettings) (f : String → String) (m : Message) : Message :=
  if m.role ∈ settings.applyTo then
    { m with
      content := m.content.map (·.mapText f)
      toolCalls :=
        if settings.scanToolArguments then
          m.toolCalls.map (·.map fun c ↦ { c with arguments := f c.arguments })
        else m.toolCalls }
  else m

/-- The engine's function of the mode succeeds on a string. -/
def EngineSucceeds (engine : PiiEngine) (settings : PiiGuardrailSettings) (s : String) : Prop :=
  if settings.mode = .redact then ∃ out, engine.redact s settings.options = .ok out
  else ∃ hits, engine.scan s settings.options = .ok hits

/-- The engine's scan reports a hit in a string. -/
def EngineHits (engine : PiiEngine) (settings : PiiGuardrailSettings) (s : String) : Prop :=
  ∃ hits, engine.scan s settings.options = .ok hits ∧ hits ≠ []

/-- The plugin does what its mode says: where the engine succeeds on every string that is scanned,
it replaces them by their redactions, rejects the request for a hit, or lets it be; and where the
engine fails the request stays as it was. -/
structure PiiGuardrailPlugin.DoesItsMode (plugin : PiiGuardrailPlugin)
    (settings : PiiGuardrailSettings) (ctx : PluginContext) : Prop where
  redacts : settings.mode = .redact →
    (∀ s, Scanned settings ctx.request s → EngineSucceeds plugin.engine settings s) →
    (plugin.execute ctx).1.request =
        { ctx.request with
          messages := ctx.request.messages.map
            (mapScanned settings (redaction plugin.engine settings.options)) } ∧
      (plugin.execute ctx).2 = .ok ()
  blocks : settings.mode = .block →
    (∀ s, Scanned settings ctx.request s → EngineSucceeds plugin.engine settings s) →
    (plugin.execute ctx).1.request = ctx.request ∧
      ((∃ name reason kind, (plugin.execute ctx).2 = .error (.rejected name reason kind)) ↔
        ∃ s, Scanned settings ctx.request s ∧ EngineHits plugin.engine settings s) ∧
      ((¬∃ s, Scanned settings ctx.request s ∧ EngineHits plugin.engine settings s) →
        (plugin.execute ctx).2 = .ok ())
  observes : settings.mode = .observe →
    (∀ s, Scanned settings ctx.request s → EngineSucceeds plugin.engine settings s) →
    (plugin.execute ctx).1.request = ctx.request ∧ (plugin.execute ctx).2 = .ok ()
  fails : (∃ s, Scanned settings ctx.request s ∧ ¬EngineSucceeds plugin.engine settings s) →
    (plugin.execute ctx).1.request = ctx.request ∧
      (settings.failOpen = true → (plugin.execute ctx).2 = .ok ()) ∧
      (settings.failOpen = false → ∃ message, (plugin.execute ctx).2 = .error (.internal message))
  inline : ∀ limit, { plugin with inlineLimitBytes := limit }.execute ctx = plugin.execute ctx

section Write

variable {settings : PiiGuardrailSettings} {m : Message} {i : ℕ} {s : String}

theorem mem_toScan {s' : String} : s' ∈ toScan s ↔ s ≠ "" ∧ s' = s := by
  rw [toScan]
  split
  · next h => exact iff_of_false List.not_mem_nil fun hs ↦ hs.1 (String.isEmpty_iff.1 h)
  · next h =>
    rw [List.mem_singleton, and_iff_right fun hs ↦ h (String.isEmpty_iff.2 hs)]

/-- The texts of the elements of a list. -/
theorem map_snd_elements {γ : Type} (slot : ℕ → Slot) (texts : γ → List String) (l : List γ) :
    (l.zipIdx.flatMap fun p ↦ (texts p.1).map (slot p.2, ·)).map Prod.snd = l.flatMap texts := by
  have htexts : (fun p : γ × ℕ ↦ ((texts p.1).map (slot p.2, ·)).map Prod.snd) =
      fun p ↦ texts p.1 := funext fun p ↦ by rw [List.map_map]; exact List.map_id _
  rw [List.map_flatMap, htexts]
  conv_rhs => rw [← List.zipIdx_map_fst 0 l, List.flatMap_map]

theorem mem_partText {part : ContentPart} : s ∈ partText part ↔ s ≠ "" ∧ part = .text s := by
  rcases part with s' | ⟨url, detail⟩
  · rw [partText, mem_toScan, ContentPart.text.injEq]
    exact ⟨fun h ↦ ⟨h.2 ▸ h.1, h.2.symm⟩, fun h ↦ ⟨h.2.symm ▸ h.1, h.2.symm⟩⟩
  · exact iff_of_false List.not_mem_nil fun h ↦ by cases h.2

/-- The texts that are collected from a content. -/
theorem mem_contentSlots {content : Option MessageContent} :
    s ∈ (contentSlots i content).map Prod.snd ↔
      s ≠ "" ∧ (content = some (.text s) ∨
        ∃ parts, content = some (.parts parts) ∧ ContentPart.text s ∈ parts) := by
  rcases content with - | (s' | parts)
  · exact iff_of_false List.not_mem_nil fun h ↦ by rcases h.2 with h | ⟨parts, h, -⟩ <;> cases h
  · have htexts : (contentSlots i (some (.text s'))).map Prod.snd = toScan s' := by
      rw [contentSlots, List.map_map]
      exact List.map_id _
    rw [htexts, mem_toScan]
    constructor
    · rintro ⟨hs, rfl⟩
      exact ⟨hs, .inl rfl⟩
    · rintro ⟨hs, h | ⟨parts, h, -⟩⟩
      · cases h
        exact ⟨hs, rfl⟩
      · cases h
  · have htexts : (contentSlots i (some (.parts parts))).map Prod.snd = parts.flatMap partText :=
      map_snd_elements (fun j ↦ .content i (some j)) partText parts
    rw [htexts, List.mem_flatMap]
    constructor
    · rintro ⟨part, hpart, hs⟩
      obtain ⟨hne, rfl⟩ := mem_partText.1 hs
      exact ⟨hne, .inr ⟨parts, rfl, hpart⟩⟩
    · rintro ⟨hne, h | ⟨parts', h, hmem⟩⟩
      · cases h
      · cases h
        exact ⟨_, hmem, mem_partText.2 ⟨hne, rfl⟩⟩

theorem mem_toolSlots {toolCalls : Option (List ToolCall)} :
    s ∈ (toolSlots i (toolCalls.getD [])).map Prod.snd ↔
      s ≠ "" ∧ ∃ calls, toolCalls = some calls ∧ ∃ c ∈ calls, c.arguments = s := by
  have htexts : (toolSlots i (toolCalls.getD [])).map Prod.snd =
      (toolCalls.getD []).flatMap fun c ↦ toScan c.arguments :=
    map_snd_elements (fun j ↦ .toolArg i j) (fun c : ToolCall ↦ toScan c.arguments) _
  rw [htexts, List.mem_flatMap]
  constructor
  · rintro ⟨c, hc, hs⟩
    obtain ⟨hne, rfl⟩ := mem_toScan.1 hs
    rcases toolCalls with - | calls
    · exact absurd hc List.not_mem_nil
    · exact ⟨hne, calls, rfl, c, hc, rfl⟩
  · rintro ⟨hne, calls, rfl, c, hc, rfl⟩
    exact ⟨c, hc, mem_toScan.2 ⟨hne, rfl⟩⟩

/-- The texts that are collected from a message are those that are scanned. -/
theorem mem_messageSlots : s ∈ (messageSlots settings (m, i)).map Prod.snd ↔
    m.role ∈ settings.applyTo ∧ ScannedIn settings m s := by
  rw [messageSlots]
  by_cases hrole : m.role ∈ settings.applyTo
  · rw [if_pos (List.contains_iff_mem.2 hrole), and_iff_right hrole, List.map_append,
      List.mem_append, mem_contentSlots, ScannedIn]
    split
    · next htools =>
      rw [mem_toolSlots, ← and_or_left, and_iff_right htools, or_assoc]
    · next htools =>
      have hnone : ¬s ∈ ([] : List (Slot × String)).map Prod.snd := List.not_mem_nil
      rw [or_iff_left hnone]
      refine and_congr_right fun _ ↦ ?_
      rw [← or_assoc]
      exact (or_iff_left fun h ↦ htools h.1).symm
  · rw [if_neg fun h ↦ hrole (List.contains_iff_mem.1 h)]
    exact iff_of_false List.not_mem_nil fun h ↦ hrole h.1

/-- The texts that are collected are those that are scanned. -/
theorem mem_foundSlots {request : ChatCompletionRequest} :
    s ∈ (foundSlots settings request.messages).map Prod.snd ↔ Scanned settings request s := by
  rw [foundSlots, List.map_flatMap, List.mem_flatMap]
  constructor
  · rintro ⟨⟨m, i⟩, hp, hs⟩
    exact ⟨m, List.fst_mem_of_mem_zipIdx hp, mem_messageSlots.1 hs⟩
  · rintro ⟨m, hm, hs⟩
    rw [← List.zipIdx_map_fst 0 request.messages] at hm
    obtain ⟨p, hp, rfl⟩ := List.mem_map.1 hm
    exact ⟨p, hp, mem_messageSlots.2 hs⟩

/-- What one entry of the loop does to the message of its slot. -/
def writeEntry (newText : String → Option String) (e : Slot × String) (m : Message) : Message :=
  (newText e.2).elim m fun t ↦ e.1.write t m

/-- What the loop does to a string. -/
def replaced (newText : String → Option String) (s : String) : String :=
  if s.isEmpty then s else (newText s).getD s

variable {newText : String → Option String}

theorem writeAll_eq_foldl (messages : List Message) (found : List (Slot × String)) :
    writeAll messages (found.map Prod.fst) ((found.map Prod.snd).map newText) =
      found.foldl (fun messages e ↦ messages.modify e.1.msg (writeEntry newText e)) messages := by
  rw [writeAll, List.map_map, List.zip_map', List.foldl_map]
  refine List.foldl_ext _ _ _ fun messages e _ ↦ ?_
  show (newText e.2).elim messages (writeBack messages e.1) = _
  rcases hnew : newText e.2 with - | t
  · have hid : writeEntry newText e = id := funext fun m ↦ by rw [writeEntry, hnew]; rfl
    rw [hid, List.modify_id]
    rfl
  · have hwrite : writeEntry newText e = fun m ↦ e.1.write t m :=
      funext fun m ↦ by rw [writeEntry, hnew]; rfl
    rw [hwrite]
    rfl

/-- The slots of a message are slots of that message. -/
theorem msg_of_mem_messageSlots {p : Message × ℕ} {e : Slot × String}
    (h : e ∈ messageSlots settings p) : e.1.msg = p.2 := by
  rw [messageSlots] at h
  split at h
  · rw [List.mem_append] at h
    rcases h with h | h
    · rw [contentSlots.eq_def] at h
      split at h
      · obtain ⟨s, -, rfl⟩ := List.mem_map.1 h
        rfl
      · obtain ⟨part, -, h⟩ := List.mem_flatMap.1 h
        obtain ⟨s, -, rfl⟩ := List.mem_map.1 h
        rfl
      · exact absurd h List.not_mem_nil
    · split at h
      · obtain ⟨call, -, h⟩ := List.mem_flatMap.1 h
        obtain ⟨s, -, rfl⟩ := List.mem_map.1 h
        rfl
      · exact absurd h List.not_mem_nil
  · exact absurd h List.not_mem_nil

/-- The loop writes the entries of each message into that message. -/
theorem writeAll_foundSlots (messages : List Message) :
    writeAll messages ((foundSlots settings messages).map Prod.fst)
        (((foundSlots settings messages).map Prod.snd).map newText) =
      messages.zipIdx.map fun p ↦
        (messageSlots settings p).foldl (fun m e ↦ writeEntry newText e m) p.1 := by
  have hpaired : foundSlots settings messages =
      (messages.zipIdx.flatMap fun p ↦ (messageSlots settings p).map (p.2, ·)).map Prod.snd := by
    rw [foundSlots, List.map_flatMap]
    refine List.flatMap_congr fun p _ ↦ ?_
    rw [List.map_map]
    exact (List.map_id _).symm
  rw [writeAll_eq_foldl, hpaired, List.foldl_map]
  refine (List.foldl_ext _ (fun messages e ↦ messages.modify e.1 (writeEntry newText e.2)) _
    fun messages e he ↦ ?_).trans
    (Lists.foldl_modify_zipIdx (writeEntry newText) (messageSlots settings) [] messages)
  obtain ⟨p, -, he⟩ := List.mem_flatMap.1 he
  obtain ⟨e', he', rfl⟩ := List.mem_map.1 he
  rw [msg_of_mem_messageSlots he']

/-- The entries of the elements of a list that `set` puts into a message. -/
theorem foldl_elements (newText : String → Option String) {γ : Type} (slot : ℕ → Slot)
    (set : List γ → Message) (write : String → γ → γ) (texts : γ → List String)
    (hwrite : ∀ l j t, (slot j).write t (set l) = set (l.modify j (write t))) (l : List γ) :
    (l.zipIdx.flatMap fun p ↦ (texts p.1).map (slot p.2, ·)).foldl
        (fun m e ↦ writeEntry newText e m) (set l) =
      set (l.map fun x ↦ (texts x).foldl (fun x t ↦ (newText t).elim x fun t' ↦ write t' x) x) := by
  have hentries (entries : List (ℕ × String)) (l : List γ) :
      (entries.map fun e ↦ (slot e.1, e.2)).foldl (fun m e ↦ writeEntry newText e m) (set l) =
        set (entries.foldl
          (fun l e ↦ l.modify e.1 fun x ↦ (newText e.2).elim x fun t' ↦ write t' x) l) := by
    induction entries generalizing l with
    | nil => rfl
    | cons e entries ih =>
      rw [List.map_cons, List.foldl_cons, List.foldl_cons, ← ih, writeEntry]
      rcases hnew : newText e.2 with - | t
      · have hid : (fun x : γ ↦ (none : Option String).elim x fun t' ↦ write t' x) = id := rfl
        rw [hid, List.modify_id]
        rfl
      · rw [Option.elim_some, hwrite]
        rfl
  have hpaired : (l.zipIdx.flatMap fun p ↦ (texts p.1).map (slot p.2, ·)) =
      (l.zipIdx.flatMap fun p ↦ (texts p.1).map (p.2, ·)).map fun e ↦ (slot e.1, e.2) := by
    rw [List.map_flatMap]
    refine List.flatMap_congr fun p _ ↦ ?_
    rw [List.map_map]
    rfl
  rw [hpaired, hentries]
  refine congrArg set ?_
  have hwrites := Lists.foldl_modify_zipIdx (fun t x ↦ (newText t).elim x fun t' ↦ write t' x)
    (fun p ↦ texts p.1) [] l
  refine hwrites.trans ?_
  rw [List.nil_append]
  conv_rhs => rw [← List.zipIdx_map_fst 0 l, List.map_map]
  rfl

/-- A string on its own. -/
theorem foldl_toScan (newText : String → Option String) {γ : Type} (write : String → γ → γ)
    (get : String → γ) (s : String)
    (hwrite : ∀ t s, write t (get s) = get t) :
    (toScan s).foldl (fun x t ↦ (newText t).elim x fun t' ↦ write t' x) (get s) =
      get (replaced newText s) := by
  rw [toScan, replaced]
  split
  · rfl
  · rw [List.foldl_cons, List.foldl_nil]
    rcases newText s with - | t
    · rfl
    · exact hwrite t s

/-- The content of a message after the loop. -/
theorem foldl_contentSlots (m : Message) :
    (contentSlots i m.content).foldl (fun m e ↦ writeEntry newText e m) m =
      { m with content := m.content.map (·.mapText (replaced newText)) } := by
  obtain ⟨role, content, name, toolCalls, toolCallId⟩ := m
  rcases content with - | (s | parts)
  · rfl
  · have htext := foldl_toScan newText
      (fun t m ↦ (Slot.content i none).write t m)
      (fun s ↦ (⟨role, some (.text s), name, toolCalls, toolCallId⟩ : Message)) s fun _ _ ↦ rfl
    rw [contentSlots, List.foldl_map]
    exact htext
  · have hparts := foldl_elements newText (fun j ↦ .content i (some j))
      (fun parts ↦ ⟨role, some (.parts parts), name, toolCalls, toolCallId⟩) setText partText
      (fun _ _ _ ↦ rfl) parts
    rw [contentSlots]
    refine hparts.trans (congrArg (fun parts ↦
      (⟨role, some (.parts parts), name, toolCalls, toolCallId⟩ : Message)) ?_)
    refine List.map_congr_left fun part _ ↦ ?_
    rcases part with s | ⟨url, detail⟩
    · exact foldl_toScan newText setText ContentPart.text s fun _ _ ↦ rfl
    · rfl

/-- The tool calls of a message after the loop. -/
theorem foldl_toolSlots (m : Message) :
    (toolSlots i (m.toolCalls.getD [])).foldl (fun m e ↦ writeEntry newText e m) m =
      { m with
        toolCalls := m.toolCalls.map
          (·.map fun c ↦ { c with arguments := replaced newText c.arguments }) } := by
  obtain ⟨role, content, name, toolCalls, toolCallId⟩ := m
  rcases toolCalls with - | calls
  · rfl
  · have hcalls := foldl_elements newText (fun j ↦ .toolArg i j)
      (fun calls ↦ ⟨role, content, name, some calls, toolCallId⟩)
      (fun t c ↦ { c with arguments := t }) (fun c ↦ toScan c.arguments) (fun _ _ _ ↦ rfl) calls
    refine hcalls.trans (congrArg (fun calls ↦
      (⟨role, content, name, some calls, toolCallId⟩ : Message)) ?_)
    refine List.map_congr_left fun c _ ↦ ?_
    obtain ⟨id, toolType, functionName, arguments⟩ := c
    exact foldl_toScan newText (fun t c ↦ { c with arguments := t })
      (fun s ↦ (⟨id, toolType, functionName, s⟩ : ToolCall)) arguments fun _ _ ↦ rfl

/-- A message after the loop. -/
theorem foldl_messageSlots (m : Message) :
    (messageSlots settings (m, i)).foldl (fun m e ↦ writeEntry newText e m) m =
      mapScanned settings (replaced newText) m := by
  rw [messageSlots, mapScanned]
  by_cases hrole : m.role ∈ settings.applyTo
  · rw [if_pos (List.contains_iff_mem.2 hrole), if_pos hrole, List.foldl_append,
      foldl_contentSlots]
    split
    · exact foldl_toolSlots { m with content := m.content.map (·.mapText (replaced newText)) }
    · rfl
  · rw [if_neg fun h ↦ hrole (List.contains_iff_mem.1 h), if_neg hrole]
    rfl

/-- The messages after the loop: every string that is scanned is replaced where it has a new text,
and nothing else is. -/
theorem writeAll_eq_map (messages : List Message) :
    writeAll messages ((foundSlots settings messages).map Prod.fst)
        (((foundSlots settings messages).map Prod.snd).map newText) =
      messages.map (mapScanned settings (replaced newText)) := by
  rw [writeAll_foundSlots]
  conv_rhs => rw [← List.zipIdx_map_fst 0 messages, List.map_map]
  exact List.map_congr_left fun p _ ↦ foldl_messageSlots p.1

end Write

/-! ### The run of the engine -/

section Engine

variable {engine : PiiEngine} {opts : RedactOptions} {mode : PiiMode}

/-- The engine's run over a text succeeds. -/
def Succeeds (engine : PiiEngine) (opts : RedactOptions) (mode : PiiMode) (s : String) : Prop :=
  ∃ r, runText engine opts mode s = .ok r

theorem succeeds_iff {settings : PiiGuardrailSettings} {s : String} :
    Succeeds engine settings.options settings.mode s ↔ EngineSucceeds engine settings s := by
  have hmap {α β : Type} (x : Except PiiError α) (f : α → β) :
      (∃ r, x.map f = .ok r) ↔ ∃ a, x = .ok a := by
    rcases x with e | a
    · exact iff_of_false (fun ⟨r, h⟩ ↦ by cases h) fun ⟨a, h⟩ ↦ by cases h
    · exact iff_of_true ⟨f a, rfl⟩ ⟨a, rfl⟩
  rw [Succeeds, EngineSucceeds]
  rcases hmode : settings.mode with - | - | -
  · rw [if_pos rfl]
    exact hmap _ _
  · rw [if_neg (by decide)]
    exact hmap _ _
  · rw [if_neg (by decide)]
    exact hmap _ _

/-- The new text of a text that was run over, if any. -/
def newTextOf (engine : PiiEngine) (opts : RedactOptions) (mode : PiiMode) (s : String) :
    Option String :=
  (runText engine opts mode s).toOption.bind (·.1)

/-- What was found in a text. -/
def foundIn (engine : PiiEngine) (opts : RedactOptions) (mode : PiiMode) (s : String) :
    List (String × UInt32) :=
  ((runText engine opts mode s).toOption.map (·.2)).getD []

/-- Where the engine succeeds on every text, so does the run, and it has counts exactly where
something was found. -/
theorem runEngine_of_succeeds {texts : List String} (h : ∀ s ∈ texts, Succeeds engine opts mode s)
    (counts : EntityCounts) :
    ∃ counts', runEngine engine opts mode texts counts =
        .ok (texts.map (newTextOf engine opts mode), counts') ∧
      (counts' = [] ↔ counts = [] ∧ ∀ s ∈ texts, foundIn engine opts mode s = []) := by
  induction texts generalizing counts with
  | nil => exact ⟨counts, rfl, (and_iff_left fun s hs ↦ absurd hs List.not_mem_nil).symm⟩
  | cons s texts ih =>
    rw [List.forall_mem_cons] at h
    obtain ⟨⟨⟨newText, found⟩, hrun⟩, hrest⟩ := h
    obtain ⟨counts', hruns, hempty⟩ := ih hrest (counts.addAll found)
    have hnew : newTextOf engine opts mode s = newText := by
      rw [newTextOf, hrun]
      rfl
    have hfound : foundIn engine opts mode s = found := by
      rw [foundIn, hrun]
      rfl
    refine ⟨counts', ?_, ?_⟩
    · rw [runEngine, hrun, List.map_cons, hnew]
      simp only [hruns, Except.map]
    · rw [hempty, EntityCounts.addAll_eq_nil, List.forall_mem_cons, hfound, and_assoc]

/-- Where the engine fails on a text, so does the run. -/
theorem runEngine_of_fails {texts : List String} (h : ∃ s ∈ texts, ¬Succeeds engine opts mode s)
    (counts : EntityCounts) : ∃ e, runEngine engine opts mode texts counts = .error e := by
  induction texts generalizing counts with
  | nil =>
    obtain ⟨s, hs, -⟩ := h
    exact absurd hs List.not_mem_nil
  | cons s texts ih =>
    rw [runEngine]
    rcases hrun : runText engine opts mode s with e | ⟨newText, found⟩
    · exact ⟨e, rfl⟩
    · obtain ⟨s', hs', hfails⟩ := h
      rcases List.mem_cons.1 hs' with rfl | hs'
      · exact absurd ⟨_, hrun⟩ hfails
      · obtain ⟨e, he⟩ := ih ⟨s', hs', hfails⟩ (counts.addAll found)
        exact ⟨e, by simp only [he, Except.map]⟩

/-- What redacting does to a string. -/
theorem replaced_newTextOf (engine : PiiEngine) (opts : RedactOptions) :
    replaced (newTextOf engine opts .redact) = redaction engine opts := by
  funext s
  rw [replaced, newTextOf, redaction, runText]
  rcases engine.redact s opts with e | out
  · simp [Except.map, Except.toOption]
  · by_cases hs : s.isEmpty <;> by_cases hout : out.replaced.isEmpty <;>
      simp [Except.map, Except.toOption, hs, hout]

/-- Where the engine finds nothing, no string gets a new text. -/
theorem newTextOf_eq_none {s : String} (h : foundIn engine opts mode s = []) :
    newTextOf engine opts mode s = none := by
  rw [foundIn] at h
  rw [newTextOf]
  rcases mode with - | - | -
  · rw [runText] at h ⊢
    rcases hredact : engine.redact s opts with e | out
    · rfl
    · rw [hredact] at h
      have hnone : out.replaced = [] := h
      simp [Except.map, Except.toOption, hnone]
  · rw [runText]
    rcases engine.scan s opts with e | hits <;> rfl
  · rw [runText]
    rcases engine.scan s opts with e | hits <;> rfl

theorem foundIn_eq_nil_iff {settings : PiiGuardrailSettings} {s : String}
    (hmode : settings.mode ≠ .redact) :
    foundIn engine settings.options settings.mode s = [] ↔ ¬EngineHits engine settings s := by
  have hrun : runText engine settings.options settings.mode s =
      (engine.scan s settings.options).map fun hits ↦ (none, hitCounts hits) := by
    rcases hm : settings.mode with - | - | -
    · exact absurd hm hmode
    · rfl
    · rfl
  rw [foundIn, hrun, EngineHits]
  rcases engine.scan s settings.options with e | hits
  · exact iff_of_true rfl fun ⟨_, h, _⟩ ↦ by cases h
  · show hitCounts hits = [] ↔ _
    rw [hitCounts, List.map_eq_nil_iff]
    constructor
    · rintro rfl ⟨hits, h, hne⟩
      exact hne (Except.ok.inj h).symm
    · intro h
      by_contra hne
      exact h ⟨hits, rfl, hne⟩

end Engine

/-! ### The plugin -/

section Execute

variable {plugin : PiiGuardrailPlugin} {settings : PiiGuardrailSettings} {ctx : PluginContext}

/-- The engine's run is the same on the blocking pool. -/
theorem run_eq (texts : List String) : plugin.run settings texts =
    runEngine plugin.engine settings.options settings.mode texts [] := by
  rw [PiiGuardrailPlugin.run, ite_self]

/-- The plugin, whatever the limit. -/
theorem execute_eq (h : plugin.settings ctx = some settings) :
    plugin.execute ctx =
      settings.conclude ctx ((foundSlots settings ctx.request.messages).map Prod.fst)
        (runEngine plugin.engine settings.options settings.mode
          ((foundSlots settings ctx.request.messages).map Prod.snd) []) := by
  rw [PiiGuardrailPlugin.execute, h]
  simp only [collectSlots, run_eq]
  split
  · next hempty =>
    rw [List.isEmpty_iff.1 hempty]
    rfl
  · rfl

/-- Where the engine succeeds and finds nothing, nothing happens. -/
theorem execute_of_nothing (h : plugin.settings ctx = some settings)
    (hsucceeds : ∀ s, Scanned settings ctx.request s → EngineSucceeds plugin.engine settings s)
    (hnothing : ∀ s, Scanned settings ctx.request s →
      foundIn plugin.engine settings.options settings.mode s = []) :
    plugin.execute ctx = (ctx, .ok ()) := by
  obtain ⟨counts, hrun, hempty⟩ := runEngine_of_succeeds
    (fun s hs ↦ succeeds_iff.2 (hsucceeds s (mem_foundSlots.1 hs))) []
  rw [execute_eq h, hrun, PiiGuardrailSettings.conclude,
    if_pos (List.isEmpty_iff.2 (hempty.2 ⟨rfl, fun s hs ↦ hnothing s (mem_foundSlots.1 hs)⟩))]

/-- Where it finds something, there are counts. -/
theorem execute_of_found (h : plugin.settings ctx = some settings)
    (hsucceeds : ∀ s, Scanned settings ctx.request s → EngineSucceeds plugin.engine settings s)
    {s : String} (hs : Scanned settings ctx.request s)
    (hfound : foundIn plugin.engine settings.options settings.mode s ≠ []) :
    ∃ counts : EntityCounts, ¬counts.isEmpty ∧
      plugin.execute ctx =
        settings.conclude ctx ((foundSlots settings ctx.request.messages).map Prod.fst)
          (.ok (((foundSlots settings ctx.request.messages).map Prod.snd).map
            (newTextOf plugin.engine settings.options settings.mode), counts)) := by
  obtain ⟨counts, hrun, hempty⟩ := runEngine_of_succeeds
    (fun s hs ↦ succeeds_iff.2 (hsucceeds s (mem_foundSlots.1 hs))) []
  refine ⟨counts, fun hnone ↦ ?_, by rw [execute_eq h, hrun]⟩
  exact hfound ((hempty.1 (List.isEmpty_iff.1 hnone)).2 s (mem_foundSlots.2 hs))

/-- Where no text is new, the loop writes nothing. -/
theorem writeAll_of_none {newText : String → Option String} {messages : List Message}
    {found : List (Slot × String)} (h : ∀ e ∈ found, newText e.2 = none) :
    writeAll messages (found.map Prod.fst) ((found.map Prod.snd).map newText) = messages := by
  rw [writeAll_eq_foldl]
  induction found with
  | nil => rfl
  | cons e found ih =>
    rw [List.forall_mem_cons] at h
    have hid : writeEntry newText e = id := funext fun m ↦ by rw [writeEntry, h.1]; rfl
    rw [List.foldl_cons, hid, List.modify_id]
    exact ih h.2

theorem execute_redact (h : plugin.settings ctx = some settings) (hmode : settings.mode = .redact)
    (hsucceeds : ∀ s, Scanned settings ctx.request s → EngineSucceeds plugin.engine settings s) :
    (plugin.execute ctx).1.request =
        { ctx.request with
          messages := ctx.request.messages.map
            (mapScanned settings (redaction plugin.engine settings.options)) } ∧
      (plugin.execute ctx).2 = .ok () := by
  rw [← replaced_newTextOf, ← writeAll_eq_map]
  by_cases hnothing : ∀ s, Scanned settings ctx.request s →
      foundIn plugin.engine settings.options settings.mode s = []
  · rw [execute_of_nothing h hsucceeds hnothing, writeAll_of_none fun e he ↦ ?_]
    · exact ⟨rfl, rfl⟩
    · rw [← hmode]
      exact newTextOf_eq_none
        (hnothing e.2 (mem_foundSlots.1 (List.mem_map_of_mem he)))
  · simp only [not_forall] at hnothing
    obtain ⟨s, hs, hfound⟩ := hnothing
    obtain ⟨counts, hcounts, hexecute⟩ := execute_of_found h hsucceeds hs hfound
    rw [hexecute, PiiGuardrailSettings.conclude, if_neg hcounts]
    simp only [hmode, and_self]

/-- In the other modes the request stays as it is, and is rejected for a hit in block mode. -/
theorem execute_scan (h : plugin.settings ctx = some settings) (hmode : settings.mode ≠ .redact)
    (hsucceeds : ∀ s, Scanned settings ctx.request s → EngineSucceeds plugin.engine settings s) :
    (plugin.execute ctx).1.request = ctx.request ∧
      ((∃ s, Scanned settings ctx.request s ∧ EngineHits plugin.engine settings s) →
        settings.mode = .block →
        ∃ name reason kind, (plugin.execute ctx).2 = .error (.rejected name reason kind)) ∧
      ((¬∃ s, Scanned settings ctx.request s ∧ EngineHits plugin.engine settings s) ∨
        settings.mode = .observe → (plugin.execute ctx).2 = .ok ()) := by
  by_cases hhits : ∃ s, Scanned settings ctx.request s ∧ EngineHits plugin.engine settings s
  · obtain ⟨s, hs, hhit⟩ := hhits
    have hfound : foundIn plugin.engine settings.options settings.mode s ≠ [] := fun hnil ↦
      (foundIn_eq_nil_iff hmode).1 hnil hhit
    obtain ⟨counts, hcounts, hexecute⟩ := execute_of_found h hsucceeds hs hfound
    rw [hexecute, PiiGuardrailSettings.conclude, if_neg hcounts]
    rcases hm : settings.mode with - | - | -
    · exact absurd hm hmode
    · refine ⟨rfl, fun _ _ ↦ ⟨_, _, _, rfl⟩, fun hor ↦ ?_⟩
      rcases hor with hnone | hobserve
      · exact absurd ⟨s, hs, hhit⟩ hnone
      · cases hobserve
    · exact ⟨rfl, fun _ hblock ↦ (by cases hblock), fun _ ↦ rfl⟩
  · have hnothing : ∀ s, Scanned settings ctx.request s →
        foundIn plugin.engine settings.options settings.mode s = [] := fun s hs ↦
      (foundIn_eq_nil_iff hmode).2 fun hhit ↦ hhits ⟨s, hs, hhit⟩
    rw [execute_of_nothing h hsucceeds hnothing]
    exact ⟨rfl, fun hhit ↦ absurd hhit hhits, fun _ ↦ rfl⟩

/-- An engine that finds the word `secret` where a text is nothing else, and fails on `broken`. -/
def wordEngine : PiiEngine where
  scan s _ :=
    if s = "broken" then .error (.engine "broken")
    else .ok (if s = "secret" then [⟨"SECRET", 0, 6, 1⟩] else [])
  redact s _ :=
    if s = "broken" then .error (.engine "broken")
    else .ok (if s = "secret" then ⟨"[SECRET]", [("SECRET", 1)]⟩ else ⟨s, []⟩)

/-- A plugin that redacts the messages of users. -/
def redactUsers : PiiGuardrailPlugin where
  engine := wordEngine
  settings _ := some ⟨.redact, .default, [.user], false, false⟩
  inlineLimitBytes := 4

end Execute

end Himadri
