import Himadri.Gateway.ResponseGuardrails
import Mathlib.Data.List.Forall2

/-!
# Redaction of the choices

A guardrail sees the texts of all choices run together, and `redact_response_text` writes one string
to every choice. So each choice gets the redaction of its own content only from a response of one
choice, and each choice is judged by its own content only where one alone has any
(`per_choice_iff`).
-/

namespace Himadri

namespace PiiResponseGuardrail

/-- A guardrail of an engine that does not panic, under fixed settings. -/
def ofEngine (engine : PiiEngine) (settings : PiiResponseSettings) (inlineLimitBytes : ℕ) :
    PiiResponseGuardrail where
  engine
  panics _ := none
  settings _ := some settings
  inlineLimitBytes

variable (guardrail : PiiResponseGuardrail) (ctx : PluginContext)

/-- What the engine makes of a text of its own. -/
def Redaction (s s' : String) : Prop :=
  (guardrail.stance ctx s = .passes ∧ s' = s) ∨ guardrail.stance ctx s = .rewrites s'

/-- What becomes of a choice's content. -/
def ContentRedaction : Option String → Option String → Prop
  | none, none => True
  | some s, some s' => guardrail.Redaction ctx s s'
  | _, _ => False

/-- The same choice, with the redaction of its own content. -/
def OwnRedaction (c c' : Choice) : Prop :=
  c' = { c with message := { c.message with content := c'.message.content } } ∧
    guardrail.ContentRedaction ctx c.message.content c'.message.content

/-- A response that is returned has the choices redacted one by one. -/
def RedactsEach (returned : Option (Except GatewayError ChatCompletionResponse))
    (response : ChatCompletionResponse) : Prop :=
  ∀ r, returned = some (.ok r) →
    r = { response with choices := r.choices } ∧
      List.Forall₂ (guardrail.OwnRedaction ctx) response.choices r.choices

/-- A response is refused exactly when the content of a choice is to be withheld. -/
def BlocksEach (returned : Option (Except GatewayError ChatCompletionResponse))
    (response : ChatCompletionResponse) : Prop :=
  (∃ e, returned = some (.error e)) ↔
    ∃ c ∈ response.choices, ∃ s, c.message.content = some s ∧
      guardrail.stance ctx s = .withholds

end PiiResponseGuardrail

/-- A text that is not empty. -/
def isWritten (s : String) : Bool := s != ""

/-- The contents of the choices that have one. -/
def ChatCompletionResponse.contents (response : ChatCompletionResponse) : List String :=
  response.choices.filterMap (·.message.content)

section Join

variable {l : List String} {s : String}

theorem length_le_join (h : s ∈ l) : s.length ≤ (String.join l).length := by
  induction l with
  | nil => exact absurd h List.not_mem_nil
  | cons s' l ih =>
    rw [String.join_cons, String.length_append]
    rcases List.mem_cons.1 h with rfl | h
    · omega
    · have := ih h
      omega

theorem join_filter_isWritten (l : List String) :
    String.join (l.filter isWritten) = String.join l := by
  induction l with
  | nil => rfl
  | cons s l ih =>
    rcases eq_or_ne s "" with rfl | hs
    · rw [List.filter_cons_of_neg (p := isWritten) (by decide), ih, String.join_cons,
        String.empty_append]
    · rw [List.filter_cons_of_pos (p := isWritten) (bne_iff_ne.2 hs), String.join_cons,
        String.join_cons, ih]

theorem length_pos_of_ne_empty (h : s ≠ "") : 0 < s.length :=
  Nat.pos_of_ne_zero fun hzero ↦ h (String.length_eq_zero_iff.1 hzero)

end Join

section Choices

open PiiResponseGuardrail

variable {g : Gateway} {env : RouteEnv} {request : ChatCompletionRequest}
  {auth : Option AuthContext} {remoteIp : Option String} {ctx : PluginContext}
  {response : ChatCompletionResponse} {text s : String} {engine : PiiEngine}
  {settings : PiiResponseSettings} {limit : ℕ}

theorem extractResponseText_eq_some :
    extractResponseText response = some text ↔
      response.contents ≠ [] ∧ String.join response.contents = text := by
  rw [extractResponseText, ← ChatCompletionResponse.contents]
  rcases response.contents with - | ⟨s, l⟩
  · exact iff_of_false (fun h ↦ by cases h) fun h ↦ h.1 rfl
  · exact ⟨fun h ↦ ⟨List.cons_ne_nil _ _, Option.some_inj.1 h⟩, fun h ↦ congrArg some h.2⟩

theorem mem_contents : s ∈ response.contents ↔ ∃ c ∈ response.choices, c.message.content = some s :=
  List.mem_filterMap

/-- An empty text is not scanned. -/
theorem stance_empty (guardrail : PiiResponseGuardrail) : guardrail.stance ctx "" = .passes := by
  have hnone : guardrail.scanSettings ctx "" = none :=
    Option.filter_eq_none_iff.2 fun settings _ h ↦ by cases h
  rw [stance, hnone]

/-- One guardrail whose engine does not panic takes its stance on the text. -/
theorem returned_ofEngine (engine : PiiEngine) (settings : PiiResponseSettings) (limit : ℕ)
    (h : g.produced env request auth remoteIp = some (ctx, response))
    (htext : extractResponseText response = some text) :
    ∃ a, ((ofEngine engine settings limit).stance ctx text).Taken a ∧
      g.returned env [.ofEngine engine settings limit] request auth remoteIp =
        some (respond response (.ok a)) := by
  have hpanics : ¬(ofEngine engine settings limit).Panics ctx text := fun hp ↦ by cases hp.2
  obtain ⟨a, hcheck, htaken⟩ := checkResponse_of_not_panics hpanics
  refine ⟨a, htaken, ?_⟩
  rw [returned_of_produced h, htext]
  show (runPiiGuardrails ctx text _).map _ = _
  rw [runPiiGuardrails, hcheck]
  cases a with
  | allow => rfl
  | reject reason => rfl
  | redact t => rfl

/-- What the client gets, by the stance of the guardrail. -/
theorem returned_cases (engine : PiiEngine) (settings : PiiResponseSettings) (limit : ℕ)
    (h : g.produced env request auth remoteIp = some (ctx, response))
    (htext : extractResponseText response = some text) :
    ((ofEngine engine settings limit).stance ctx text = .passes ∧
      g.returned env [.ofEngine engine settings limit] request auth remoteIp =
        some (.ok response)) ∨
    ((ofEngine engine settings limit).stance ctx text = .withholds ∧
      ∃ e, g.returned env [.ofEngine engine settings limit] request auth remoteIp =
        some (.error e)) ∨
    ∃ t, (ofEngine engine settings limit).stance ctx text = .rewrites t ∧
      g.returned env [.ofEngine engine settings limit] request auth remoteIp =
        some (.ok (redactResponseText response t)) := by
  obtain ⟨a, htaken, hreturned⟩ := returned_ofEngine engine settings limit h htext
  cases hstance : (ofEngine engine settings limit).stance ctx text with
  | passes =>
    rw [hstance] at htaken
    obtain rfl : a = .allow := htaken
    exact .inl ⟨rfl, hreturned⟩
  | withholds =>
    rw [hstance] at htaken
    obtain ⟨reason, rfl⟩ := htaken
    exact .inr (.inl ⟨rfl, _, hreturned⟩)
  | rewrites t =>
    rw [hstance] at htaken
    obtain rfl : a = .redact t := htaken
    exact .inr (.inr ⟨t, rfl, hreturned⟩)

/-- An engine that replaces one text and leaves all others. -/
def replacing (text replacement : String) : PiiEngine where
  scan _ _ := .ok []
  redact s _ := .ok (if s = text then ⟨replacement, [("PII", 1)]⟩ else ⟨s, []⟩)

/-- An engine that finds something in one text alone. -/
def finding (text : String) : PiiEngine where
  scan s _ := .ok (if s = text then [⟨"PII", 0, 1, 1⟩] else [])
  redact s _ := .ok ⟨s, []⟩

theorem stance_ofEngine (hs : s ≠ "") (hmode : settings.mode ≠ .off) :
    (ofEngine engine settings limit).stance ctx s =
      match (ofEngine engine settings limit).run settings s with
      | .error _ => failed settings
      | .ok (.redacted out) => if out.replaced = [] then .passes else .rewrites out.text
      | .ok (.hits hits) =>
        if settings.mode = .block ∧ hits ≠ [] then .withholds else .passes := by
  have hsettings : (ofEngine engine settings limit).scanSettings ctx s = some settings := by
    refine Option.filter_eq_some_iff.2 ⟨rfl, ?_⟩
    have hempty : s.isEmpty = false := by
      rw [← Bool.not_eq_true, String.isEmpty_iff]
      exact hs
    rw [hempty, bne_iff_ne.2 hmode]
    rfl
  rw [stance, hsettings]
  rfl

theorem stance_replacing {replacement : String} {options : RedactOptions} {failOpen : Bool}
    (htext : text ≠ "") :
    (ofEngine (replacing text replacement) ⟨.redact, options, failOpen⟩ limit).stance ctx s =
      if s = text then .rewrites replacement else .passes := by
  rcases eq_or_ne s "" with rfl | hs
  · rw [stance_empty, if_neg htext.symm]
  · rw [stance_ofEngine hs fun h ↦ by cases h]
    simp only [run, replacing, if_true, Except.map, ofEngine]
    by_cases h : s = text
    · rw [if_pos h, if_pos h, if_neg (List.cons_ne_nil _ _)]
    · rw [if_neg h, if_neg h, if_pos rfl]

theorem stance_finding {options : RedactOptions} {failOpen : Bool} (htext : text ≠ "") :
    (ofEngine (finding text) ⟨.block, options, failOpen⟩ limit).stance ctx s =
      if s = text then .withholds else .passes := by
  rcases eq_or_ne s "" with rfl | hs
  · rw [stance_empty, if_neg htext.symm]
  · rw [stance_ofEngine hs fun h ↦ by cases h]
    have hmode : ¬PiiResponseMode.block = .redact := by decide
    simp only [run, finding, if_neg hmode, Except.map, ofEngine]
    by_cases h : s = text
    · rw [if_pos h, if_pos h, if_pos ⟨trivial, List.cons_ne_nil _ _⟩]
    · rw [if_neg h, if_neg h, if_neg fun hboth ↦ hboth.2 rfl]

/-- A response none of whose contents is touched has its choices redacted one by one. -/
theorem redacted_self {guardrail : PiiResponseGuardrail} {choices : List Choice}
    (h : ∀ c ∈ choices, ∀ s, c.message.content = some s → guardrail.stance ctx s = .passes) :
    List.Forall₂ (guardrail.OwnRedaction ctx) choices choices := by
  induction choices with
  | nil => exact .nil
  | cons c choices ih =>
    rw [List.forall_mem_cons] at h
    refine .cons ⟨rfl, ?_⟩ (ih h.2)
    rcases hcontent : c.message.content with - | s
    · trivial
    · exact .inl ⟨h.1 s hcontent, rfl⟩

/-- A choice among two whose contents make up the text together. -/
theorem eq_empty_of_two {c c' : Choice} {choices : List Choice}
    (hchoices : response.choices = c :: c' :: choices) (hc : c.message.content = some text)
    (hc' : c'.message.content = some text) (htext : String.join response.contents = text) :
    text = "" := by
  rw [ChatCompletionResponse.contents, hchoices,
    List.filterMap_cons_some (f := fun c : Choice ↦ c.message.content) hc,
    List.filterMap_cons_some (f := fun c : Choice ↦ c.message.content) hc', String.join_cons,
    String.join_cons] at htext
  have hlength := congrArg String.length htext
  rw [String.length_append, String.length_append] at hlength
  exact String.length_eq_zero_iff.1 (by omega)

/-- Without a text to scan, nothing happens to the response. -/
theorem returned_of_empty (h : g.produced env request auth remoteIp = some (ctx, response))
    (hempty : ∀ text, extractResponseText response = some text → text = "") :
    g.returned env [.ofEngine engine settings limit] request auth remoteIp =
      some (.ok response) := by
  rcases htext : extractResponseText response with - | text
  · rw [returned_of_produced h, htext]
  · obtain rfl := hempty text htext
    obtain ⟨a, htaken, hreturned⟩ :=
      returned_ofEngine engine settings limit h htext
    rw [stance_empty] at htaken
    obtain rfl : a = .allow := htaken
    exact hreturned

/-- Every content is empty where the text is. -/
theorem content_eq_empty (hempty : ∀ text, extractResponseText response = some text → text = "")
    (hs : s ∈ response.contents) : s = "" := by
  have htext : extractResponseText response = some (String.join response.contents) :=
    extractResponseText_eq_some.2 ⟨List.ne_nil_of_mem hs, rfl⟩
  have hle := length_le_join hs
  rw [hempty _ htext] at hle
  exact String.length_eq_zero_iff.1 (Nat.le_zero.1 hle)

/-- The content of the only choice is the text. -/
theorem content_eq_text {c : Choice} (hchoices : response.choices = [c])
    (htext : extractResponseText response = some text) : c.message.content = some text := by
  obtain ⟨hcontents, hjoin⟩ := extractResponseText_eq_some.1 htext
  rw [ChatCompletionResponse.contents, hchoices] at hcontents hjoin
  rcases hcontent : c.message.content with - | s
  · exact absurd (List.filterMap_cons_none (f := fun c : Choice ↦ c.message.content) hcontent)
      hcontents
  · rw [List.filterMap_cons_some (f := fun c : Choice ↦ c.message.content) hcontent,
      List.filterMap_nil, String.join_cons, String.join_nil, String.append_empty] at hjoin
    rw [hjoin]

/-- Where the text is redacted as each content would be, every content is the text: a replacement
longer than every content shows that no content was left. -/
theorem contents_eq_text_of_redactsEach
    (h : g.produced env request auth remoteIp = some (ctx, response))
    (htext : extractResponseText response = some text) (hne : text ≠ "")
    (hredacts : (ofEngine (replacing text (text ++ "x")) ⟨.redact, .default, false⟩ 0).RedactsEach
      ctx (g.returned env [.ofEngine (replacing text (text ++ "x")) ⟨.redact, .default, false⟩ 0]
        request auth remoteIp) response) :
    ∀ c ∈ response.choices, c.message.content = some text := by
  obtain ⟨-, hjoin⟩ := extractResponseText_eq_some.1 htext
  have hreplaced : ∀ s ∈ response.contents, text ++ "x" ≠ s := fun s hs heq ↦ by
    have hle := length_le_join hs
    rw [hjoin, ← heq, String.length_append] at hle
    have hx : "x".length = 1 := rfl
    omega
  obtain ⟨a, htaken, hreturned⟩ := returned_ofEngine
    (replacing text (text ++ "x")) ⟨.redact, .default, false⟩ 0 h htext
  rw [stance_replacing hne, if_pos rfl] at htaken
  obtain rfl : a = .redact (text ++ "x") := htaken
  obtain ⟨-, heach⟩ := hredacts _ hreturned
  intro c hc
  have hredaction := (List.forall₂_same.1 (List.forall₂_map_right_iff.1 heach) c hc).2
  rcases hcontent : c.message.content with - | s
  · rw [hcontent] at hredaction
    exact hredaction.elim
  · rw [hcontent] at hredaction
    rcases hredaction with ⟨-, heq⟩ | hrewrites
    · exact absurd heq (hreplaced s (mem_contents.2 ⟨c, hc, hcontent⟩))
    · rw [stance_replacing hne] at hrewrites
      by_cases hs : s = text
      · rw [hs]
      · rw [if_neg hs] at hrewrites
        cases hrewrites

/-- The only choice of a response gets its own redaction. -/
theorem redactsEach_of_one {c : Choice} {options : RedactOptions} {failOpen : Bool}
    (h : g.produced env request auth remoteIp = some (ctx, response))
    (htext : extractResponseText response = some text) (hchoices : response.choices = [c]) :
    (ofEngine engine ⟨.redact, options, failOpen⟩ limit).RedactsEach ctx
      (g.returned env [.ofEngine engine ⟨.redact, options, failOpen⟩ limit] request auth remoteIp)
      response := by
  have hcontent := content_eq_text hchoices htext
  intro r hr
  rcases returned_cases engine ⟨.redact, options, failOpen⟩ limit h htext with
    ⟨hstance, hreturned⟩ | ⟨-, e, hreturned⟩ | ⟨t, hstance, hreturned⟩
  · obtain rfl := Except.ok.inj (Option.some_inj.1 (hreturned.symm.trans hr))
    refine ⟨rfl, redacted_self fun c' hc' s hs ↦ ?_⟩
    rw [hchoices, List.mem_singleton] at hc'
    rw [hc', hcontent] at hs
    rw [← Option.some_inj.1 hs]
    exact hstance
  · cases hreturned.symm.trans hr
  · obtain rfl := Except.ok.inj (Option.some_inj.1 (hreturned.symm.trans hr))
    refine ⟨rfl, ?_⟩
    rw [redactResponseText, hchoices]
    refine .cons ⟨rfl, ?_⟩ .nil
    rw [hcontent]
    exact .inr hstance

/-- Each choice gets its own redaction, whatever the engine, exactly from a response of one choice
or without text. -/
theorem redactsEach_iff (h : g.produced env request auth remoteIp = some (ctx, response)) :
    (∀ engine options failOpen limit,
      (ofEngine engine ⟨.redact, options, failOpen⟩ limit).RedactsEach ctx
        (g.returned env [.ofEngine engine ⟨.redact, options, failOpen⟩ limit] request auth remoteIp)
        response) ↔
      ∀ text, extractResponseText response = some text → text ≠ "" →
        response.choices.length = 1 := by
  constructor
  · intro hall text htext hne
    obtain ⟨hcontents, hjoin⟩ := extractResponseText_eq_some.1 htext
    have hown := contents_eq_text_of_redactsEach h htext hne (hall _ .default false 0)
    rcases hchoices : response.choices with - | ⟨c, - | ⟨c', choices⟩⟩
    · rw [ChatCompletionResponse.contents, hchoices] at hcontents
      exact absurd rfl hcontents
    · rfl
    · rw [hchoices] at hown
      exact absurd (eq_empty_of_two hchoices (hown c List.mem_cons_self)
        (hown c' (List.mem_cons_of_mem _ List.mem_cons_self)) hjoin) hne
  · intro hone engine options failOpen limit
    by_cases hempty : ∀ text, extractResponseText response = some text → text = ""
    · intro r hr
      rw [returned_of_empty h hempty] at hr
      obtain rfl := Except.ok.inj (Option.some_inj.1 hr)
      refine ⟨rfl, redacted_self fun c hc s hs ↦ ?_⟩
      rw [content_eq_empty hempty (mem_contents.2 ⟨c, hc, hs⟩)]
      exact stance_empty _
    · simp only [not_forall] at hempty
      obtain ⟨text, htext, hne⟩ := hempty
      obtain ⟨c, hchoices⟩ := List.length_eq_one_iff.1 (hone text htext hne)
      exact redactsEach_of_one h htext hchoices

/-- Of two contents that are not empty, the first is not withheld for what is found in it alone. -/
theorem not_blocksEach_of_two {s' : String} {l : List String}
    (h : g.produced env request auth remoteIp = some (ctx, response))
    (hwritten : response.contents.filter isWritten = s :: s' :: l) :
    ¬(ofEngine (finding s) ⟨.block, .default, false⟩ 0).BlocksEach ctx
      (g.returned env [.ofEngine (finding s) ⟨.block, .default, false⟩ 0] request auth remoteIp)
      response := by
  have hmem (t : String) (ht : t ∈ s :: s' :: l) : t ∈ response.contents ∧ t ≠ "" := by
    rw [← hwritten, List.mem_filter] at ht
    exact ⟨ht.1, bne_iff_ne.1 ht.2⟩
  obtain ⟨hs, hsne⟩ := hmem s List.mem_cons_self
  obtain ⟨-, hs'ne⟩ := hmem s' (List.mem_cons_of_mem _ List.mem_cons_self)
  have hjoin : String.join response.contents = s ++ (s' ++ String.join l) := by
    rw [← join_filter_isWritten, hwritten, String.join_cons, String.join_cons]
  have htext : extractResponseText response = some (String.join response.contents) :=
    extractResponseText_eq_some.2 ⟨List.ne_nil_of_mem hs, rfl⟩
  have hlonger : String.join response.contents ≠ s := fun heq ↦ by
    have hlength := congrArg String.length (hjoin.symm.trans heq)
    rw [String.length_append, String.length_append] at hlength
    have := length_pos_of_ne_empty hs'ne
    omega
  obtain ⟨a, htaken, hreturned⟩ := returned_ofEngine (finding s)
    ⟨.block, .default, false⟩ 0 h htext
  rw [stance_finding hsne, if_neg hlonger] at htaken
  obtain rfl : a = .allow := htaken
  obtain ⟨c, hc, hcontent⟩ := mem_contents.1 hs
  intro hblocks
  obtain ⟨e, he⟩ := hblocks.2 ⟨c, hc, s, hcontent, by rw [stance_finding hsne, if_pos rfl]⟩
  rw [hreturned] at he
  cases he

/-- The text is the one content that is not empty. -/
theorem written_eq_text (hone : (response.contents.filter isWritten).length ≤ 1)
    (htext : extractResponseText response = some text) (hne : text ≠ "") :
    response.contents.filter isWritten = [text] := by
  obtain ⟨-, hjoin⟩ := extractResponseText_eq_some.1 htext
  rcases hlist : response.contents.filter isWritten with - | ⟨s, - | ⟨s', l⟩⟩
  · rw [← hjoin, ← join_filter_isWritten, hlist] at hne
    exact absurd rfl hne
  · rw [← hjoin, ← join_filter_isWritten, hlist, String.join_cons, String.join_nil,
      String.append_empty]
  · rw [hlist] at hone
    exact absurd hone (by rw [List.length_cons, List.length_cons]; omega)

/-- A response is refused exactly when its text is to be withheld. -/
theorem refused_iff (h : g.produced env request auth remoteIp = some (ctx, response))
    (htext : extractResponseText response = some text) :
    (∃ e, g.returned env [.ofEngine engine settings limit] request auth remoteIp =
        some (.error e)) ↔ (ofEngine engine settings limit).stance ctx text = .withholds := by
  rcases returned_cases engine settings limit h htext with
    ⟨hstance, hreturned⟩ | ⟨hstance, hrefused⟩ | ⟨t, hstance, hreturned⟩
  · rw [hreturned, hstance]
    exact iff_of_false (fun ⟨e, he⟩ ↦ by cases he) Stance.noConfusion
  · exact iff_of_true hrefused hstance
  · rw [hreturned, hstance]
    exact iff_of_false (fun ⟨e, he⟩ ↦ by cases he) Stance.noConfusion

/-- A response is refused for the content of a choice, whatever the engine, exactly where at most
one choice has a content that is not empty. -/
theorem blocksEach_iff (h : g.produced env request auth remoteIp = some (ctx, response)) :
    (∀ engine options failOpen limit,
      (ofEngine engine ⟨.block, options, failOpen⟩ limit).BlocksEach ctx
        (g.returned env [.ofEngine engine ⟨.block, options, failOpen⟩ limit] request auth remoteIp)
        response) ↔
      (response.contents.filter isWritten).length ≤ 1 := by
  constructor
  · intro hall
    rcases hwritten : response.contents.filter isWritten with - | ⟨s, - | ⟨s', l⟩⟩
    · exact Nat.zero_le 1
    · exact le_refl 1
    · exact absurd (hall (finding s) .default false 0) (not_blocksEach_of_two h hwritten)
  · intro hone engine options failOpen limit
    by_cases hempty : ∀ text, extractResponseText response = some text → text = ""
    · rw [BlocksEach, returned_of_empty h hempty]
      refine iff_of_false (fun ⟨e, he⟩ ↦ by cases he) fun ⟨c, hc, s, hs, hw⟩ ↦ ?_
      rw [content_eq_empty hempty (mem_contents.2 ⟨c, hc, hs⟩), stance_empty] at hw
      cases hw
    · simp only [not_forall] at hempty
      obtain ⟨text, htext, hne⟩ := hempty
      have hcontent : ∀ s, (s ∈ response.contents ∧ s ≠ "") ↔ s = text := by
        intro s
        rw [← List.mem_singleton, ← written_eq_text hone htext hne, List.mem_filter, isWritten,
          bne_iff_ne]
      rw [BlocksEach, refused_iff h htext]
      constructor
      · intro hw
        obtain ⟨hmem, -⟩ := (hcontent text).2 rfl
        obtain ⟨c, hc, hs⟩ := mem_contents.1 hmem
        exact ⟨c, hc, text, hs, hw⟩
      · rintro ⟨c, hc, s, hs, hw⟩
        have hsne : s ≠ "" := by
          rintro rfl
          rw [stance_empty] at hw
          cases hw
        rwa [← (hcontent s).1 ⟨mem_contents.2 ⟨c, hc, hs⟩, hsne⟩]

/-- Redaction and blocking are per choice exactly from responses whose text is that of one choice:
of the only choice there is, for redaction. -/
theorem per_choice_iff (h : g.produced env request auth remoteIp = some (ctx, response)) :
    ((∀ engine options failOpen limit,
      (ofEngine engine ⟨.redact, options, failOpen⟩ limit).RedactsEach ctx
        (g.returned env [.ofEngine engine ⟨.redact, options, failOpen⟩ limit] request auth remoteIp)
        response) ↔
      ∀ text, extractResponseText response = some text → text ≠ "" →
        response.choices.length = 1) ∧
    ((∀ engine options failOpen limit,
      (ofEngine engine ⟨.block, options, failOpen⟩ limit).BlocksEach ctx
        (g.returned env [.ofEngine engine ⟨.block, options, failOpen⟩ limit] request auth remoteIp)
        response) ↔
      (response.contents.filter isWritten).length ≤ 1) :=
  ⟨redactsEach_iff h, blocksEach_iff h⟩

theorem one_choice_redacted : ∃ ctx,
    (ofEngine secretEngine ⟨.redact, .default, false⟩ 0).RedactsEach ctx
      (oneProvider.returned (.answering "secret")
        [.ofEngine secretEngine ⟨.redact, .default, false⟩ 0] helloRequest none none)
      (.ofText "response" "gpt-4o" "secret") := by
  obtain ⟨ctx, h⟩ := produced_answering "secret"
  exact ⟨ctx, (per_choice_iff h).1.2 (fun _ _ _ ↦ rfl) secretEngine .default false 0⟩

/-- A response of two choices. -/
def twoChoices (first second : String) : ChatCompletionResponse :=
  { ChatCompletionResponse.ofText "response" "gpt-4o" first with
    choices :=
      [⟨0, ⟨.assistant, some first, none⟩, some "stop"⟩,
        ⟨1, ⟨.assistant, some second, none⟩, some "stop"⟩] }

/-- The provider answers with two choices. -/
def RouteEnv.answeringTwo (first second : String) : RouteEnv :=
  { RouteEnv.answering first with trial := fun _ ↦ ⟨true, .ok (twoChoices first second), 1⟩ }

/-- Two contents that make up a secret together are both replaced by it; one that is a secret by
itself passes beside another. -/
theorem choices_run_together : ∃ ctx,
    oneProvider.produced (.answeringTwo "sec" "ret") helloRequest none none =
      some (ctx, twoChoices "sec" "ret") ∧
    ¬(ofEngine secretEngine ⟨.redact, .default, false⟩ 0).RedactsEach ctx
      (oneProvider.returned (.answeringTwo "sec" "ret")
        [.ofEngine secretEngine ⟨.redact, .default, false⟩ 0] helloRequest none none)
      (twoChoices "sec" "ret") ∧
    ¬(ofEngine secretEngine ⟨.block, .default, false⟩ 0).BlocksEach ctx
      (oneProvider.returned (.answeringTwo "secret" "!")
        [.ofEngine secretEngine ⟨.block, .default, false⟩ 0] helloRequest none none)
      (twoChoices "secret" "!") := by
  have h : (oneProvider.produced (.answeringTwo "sec" "ret") helloRequest none none).map (·.2) =
      some (twoChoices "sec" "ret") := rfl
  obtain ⟨⟨ctx, r⟩, hproduced, rfl⟩ := Option.map_eq_some_iff.1 h
  refine ⟨ctx, hproduced, fun hredacts ↦ ?_, fun hblocks ↦ ?_⟩
  · obtain ⟨-, heach⟩ := hredacts (twoChoices "[SECRET]" "[SECRET]") rfl
    obtain ⟨-, hfirst⟩ := (List.forall₂_cons.1 heach).1
    rcases hfirst with ⟨-, hsame⟩ | hrewrites
    · exact absurd hsame (by decide)
    · cases hrewrites
  · obtain ⟨e, he⟩ := hblocks.2 ⟨_, List.mem_cons_self, "secret", rfl, rfl⟩
    cases he

end Choices

end Himadri
