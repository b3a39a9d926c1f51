import Himadri.Core.JsonSame
import Himadri.Plugins.Cache

/-!
# The text behind a cache key

The document of `cache_key` as it is serialized, with the scope and every field of the request but
`stream` under names of their own. `serde_json::to_vec` writes members in the order of their names,
so its text tells documents apart up to that order, and the hash tells texts apart: both are
arguments, with this as what is asked of them where a theorem needs it.
-/

namespace Himadri

/-- The `json!` document of `cache_key`; a field that is `None` is `null`. -/
def CacheDocument.json (d : CacheDocument) (extra : List (String × Json)) : Json :=
  .record [("org_id", some (.ofOption d.orgId)), ("team_id", some (.ofOption d.teamId)),
    ("model", some (.string d.model)), ("messages", some (Json.list Message.json d.messages)),
    ("temperature", some ((d.temperature.map floatJson).getD .null)),
    ("top_p", some ((d.topP.map floatJson).getD .null)),
    ("max_tokens", some ((d.maxTokens.map Json.nat).getD .null)),
    ("stop", some ((d.stop.map (Json.list .string)).getD .null)),
    ("presence_penalty", some ((d.presencePenalty.map floatJson).getD .null)),
    ("frequency_penalty", some ((d.frequencyPenalty.map floatJson).getD .null)),
    ("tools", some ((d.tools.map (Json.list Tool.json)).getD .null)),
    ("tool_choice", some (d.toolChoice.getD .null)), ("user", some (.ofOption d.user)),
    ("extra", some (.object extra))]

/-- `ResponseCachePlugin::cache_key`, with the entries of the flattened map as they are iterated. -/
def cacheKeyOf (toVec : Json → String) (sha256 : String → String)
    (request : ChatCompletionRequest) (extra : List (String × Json))
    (orgId teamId : Option String) : String :=
  cacheKey (fun d ↦ sha256 (toVec (d.json extra))) request orgId teamId

/-- The same request but for `stream`, with the members of raw JSON in any order. -/
structure ChatCompletionRequest.SameAs (r r' : ChatCompletionRequest) : Prop where
  model : r.model = r'.model
  messages : r.messages = r'.messages
  temperature : r.temperature = r'.temperature
  topP : r.topP = r'.topP
  maxTokens : r.maxTokens = r'.maxTokens
  stop : r.stop = r'.stop
  presencePenalty : r.presencePenalty = r'.presencePenalty
  frequencyPenalty : r.frequencyPenalty = r'.frequencyPenalty
  user : r.user = r'.user
  tools : Option.Rel (List.Forall₂ Tool.SameAs) r.tools r'.tools
  toolChoice : Option.Rel Json.Same r.toolChoice r'.toolChoice
  extra : ∀ name, Option.Rel Json.Same (r.extra.get name) (r'.extra.get name)

/-- What is looked up among the entries is what is under the key. -/
theorem member_of_iteratedAs {m : KeyMap String Json} {entries : List (String × Json)}
    (h : m.IteratedAs entries) (name : String) : Serde.member entries name = m.get name := by
  rcases hfind : entries.find? (·.1 == name) with - | e
  · rw [Serde.member, hfind, Option.map_none]
    rcases hget : m.get name with - | v
    · rfl
    · have hmem := (h.get_iff name v).1 hget
      exact absurd (beq_self_eq_true name) (List.find?_eq_none.1 hfind _ hmem)
  · obtain rfl : e.1 = name := by simpa using List.find?_some hfind
    rw [Serde.member, hfind, Option.map_some]
    exact ((h.get_iff e.1 e.2).2 (List.mem_of_find?_eq_some hfind)).symm

/-! ### Documents -/

/-- A decoded request has no `null` for its tool choice. -/
theorem toolChoice_ne_null {members : List (String × Json)} {r : ChatCompletionRequest}
    (h : decodeRequest members = some r) : r.toolChoice ≠ some .null := by
  obtain ⟨-, -, -, -, -, -, -, -, -, -, hchoice, -⟩ := decodeRequest_eq_some h
  rw [Serde.structField] at hchoice
  intro hnull
  rw [hnull] at hchoice
  split at hchoice
  · cases hchoice
  · next m hone =>
    by_cases hm : m.2 = .null
    · rw [hm] at hchoice
      cases hchoice
    · rw [Serde.option_of_ne_null hm] at hchoice
      exact hm (Option.some.inj (Option.some.inj hchoice))
  · cases hchoice

theorem same_choice_iff {o o' : Option Json} (h : o ≠ some .null) (h' : o' ≠ some .null) :
    (o.getD .null).Same (o'.getD .null) ↔ Option.Rel Json.Same o o' := by
  rcases o with - | v <;> rcases o' with - | w
  · exact iff_of_true (.refl .null) .none
  · refine iff_of_false (fun hsame ↦ h' ?_) fun hrel ↦ by cases hrel
    exact congrArg some ((Json.same_iff_eq (v := .null) trivial).1 hsame).symm
  · refine iff_of_false (fun hsame ↦ h ?_) fun hrel ↦ by cases hrel
    exact congrArg some (Json.same_null_iff.1 hsame)
  · rw [Option.rel_some_some]
    rfl

theorem same_ofOption_iff {o o' : Option String} :
    (Json.ofOption o).Same (Json.ofOption o') ↔ o = o' := by
  have h := writes_string.orNullEq (fun _ hnull ↦ by cases hnull) o o'
  rcases o with - | s <;> rcases o' with - | s' <;> exact h

section Document

variable {r r' : ChatCompletionRequest} {entries entries' : List (String × Json)}
  {orgId teamId orgId' teamId' : Option String}

/-- The documents of two requests are the same when the scopes and the requests are. -/
theorem same_document_iff (hchoice : r.toolChoice ≠ some .null)
    (hchoice' : r'.toolChoice ≠ some .null) (hentries : r.extra.IteratedAs entries)
    (hentries' : r'.extra.IteratedAs entries') :
    ((cacheDocument r orgId teamId).json entries).Same
        ((cacheDocument r' orgId' teamId').json entries') ↔
      orgId = orgId' ∧ teamId = teamId' ∧ r.SameAs r' := by
  have hfloat : ∀ q, floatJson q ≠ .null := fun _ h ↦ by cases h
  have hnat : ∀ n, Json.nat n ≠ .null := fun _ h ↦ by cases h
  have hstops : ∀ l, Json.list Json.string l ≠ .null := fun _ h ↦ by cases h
  have htools : ∀ l, Json.list Tool.json l ≠ .null := fun _ h ↦ by cases h
  have hextra : (Json.object entries).Same (.object entries') ↔
      ∀ name, Option.Rel Json.Same (r.extra.get name) (r'.extra.get name) := by
    rw [Json.same_object_iff]
    refine forall_congr' fun name ↦ ?_
    rw [member_of_iteratedAs hentries, member_of_iteratedAs hentries']
  refine (Json.same_record_iff ["org_id", "team_id", "model", "messages", "temperature", "top_p",
    "max_tokens", "stop", "presence_penalty", "frequency_penalty", "tools", "tool_choice", "user",
    "extra"] rfl rfl (by decide)).trans ?_
  simp only [List.forall₂_cons, Option.rel_some_some, same_ofOption_iff, writes_string _ _,
    writes_message.listEq _ _, writes_float.orNullEq hfloat, writes_nat.orNullEq hnat,
    writes_string.listEq.orNullEq hstops, writes_tool.list.orNull htools, cacheDocument,
    same_choice_iff hchoice hchoice', hextra, List.forall₂_nil_left_iff]
  constructor
  · rintro ⟨horg, hteam, hmodel, hmessages, htemperature, htopP, hmaxTokens, hstop, hpresence,
      hfrequency, htools, hchoice, huser, hextra, -⟩
    exact ⟨horg, hteam, hmodel, hmessages, htemperature, htopP, hmaxTokens, hstop, hpresence,
      hfrequency, huser, htools, hchoice, hextra⟩
  · rintro ⟨horg, hteam, h⟩
    exact ⟨horg, hteam, h.model, h.messages, h.temperature, h.topP, h.maxTokens, h.stop,
      h.presencePenalty, h.frequencyPenalty, h.tools, h.toolChoice, h.user, h.extra, trivial⟩

/-- The key tells any two decoded requests apart, and nothing else: with the hash and the text of
the two documents telling them apart, the keys are equal exactly when the scopes and the requests
are the same. -/
theorem cacheKey_identifies (toVec : Json → String) (sha256 : String → String)
    {members members' : List (String × Json)} (hr : decodeRequest members = some r)
    (hr' : decodeRequest members' = some r') (hentries : r.extra.IteratedAs entries)
    (hentries' : r'.extra.IteratedAs entries') (orgId teamId orgId' teamId' : Option String) :
    let d := (cacheDocument r orgId teamId).json entries
    let d' := (cacheDocument r' orgId' teamId').json entries'
    (toVec d = toVec d' ↔ d.Same d') →
    (sha256 (toVec d) = sha256 (toVec d') → toVec d = toVec d') →
      (cacheKeyOf toVec sha256 r entries orgId teamId =
          cacheKeyOf toVec sha256 r' entries' orgId' teamId' ↔
        orgId = orgId' ∧ teamId = teamId' ∧ r.SameAs r') := by
  intro d d' htext hhash
  rw [← same_document_iff (toolChoice_ne_null hr) (toolChoice_ne_null hr') hentries hentries',
    ← htext]
  exact ⟨hhash, congrArg sha256⟩

end Document

/-! Two tenants with one request. -/

/-- A request of a client. -/
def seededMembers : List (String × Json) :=
  [("model", .string "gpt-4o"),
    ("messages", .array [.object [("role", .string "user"), ("content", .string "hello")]]),
    ("seed", .nat 7)]

/-- What it is decoded to. -/
def seededRequest : ChatCompletionRequest :=
  { ChatCompletionRequest.ofMessages "gpt-4o" [.user "hello"] with
    extra := KeyMap.empty.insert "seed" (.nat 7) }

/-- The text of its document, for an organisation as it is written in JSON. -/
def seededText (orgId : String) : String :=
  "\x7b\"extra\":\x7b\"seed\":7\x7d,\"frequency_penalty\":null," ++
    "\"max_tokens\":null,\"messages\":[\x7b\"content\":\"hello\"," ++
    "\"role\":\"user\"\x7d],\"model\":\"gpt-4o\",\"org_id\":" ++
    orgId ++ ",\"presence_penalty\":null,\"stop\":null,\"team_id\":null," ++
    "\"temperature\":null,\"tool_choice\":null,\"tools\":null,\"top_p\":null," ++
    "\"user\":null\x7d"

/-- The text and the hash as they are for the request, in the organisation `acme` and in none. -/
def seededToVec (v : Json) : String :=
  match (v.get "org_id").asStr with
  | some orgId => seededText ("\"" ++ orgId ++ "\"")
  | none => seededText "null"

/-- SHA-256 of the two texts. -/
def seededSha256 (text : String) : String :=
  if text = seededText "null" then
    "a8d2f924251b3a634d3fa90b6f11e5b87a8a9fb415771f746110394165be6bc1"
  else "99e2fce9c12b3dadb00b6dc2ce31cbe499cba94c495fb20bdf6b5d02f719c60d"

theorem cacheKey_identifies_tenants :
    cacheKeyOf seededToVec seededSha256 seededRequest [("seed", .nat 7)] (some "acme") none =
        cacheKeyOf seededToVec seededSha256 seededRequest [("seed", .nat 7)] none none ↔
      some "acme" = none ∧ (none : Option String) = none ∧ seededRequest.SameAs seededRequest := by
  have hdecoded : decodeRequest seededMembers = some seededRequest := rfl
  have hentries : seededRequest.extra.IteratedAs [("seed", .nat 7)] :=
    KeyMap.iteratedAs_empty.insert "seed" (Json.nat 7)
  have hne : seededText "\"acme\"" ≠ seededText "null" := by decide +kernel
  refine cacheKey_identifies seededToVec seededSha256 hdecoded hdecoded hentries hentries
    (some "acme") none none none ?_ ?_
  · refine iff_of_false hne fun hsame ↦ ?_
    have hchoice : seededRequest.toolChoice ≠ some .null := fun h ↦ by cases h
    cases ((same_document_iff hchoice hchoice hentries hentries).1 hsame).1
  · intro hhash
    have hdigests : seededSha256 (seededText "\"acme\"") ≠ seededSha256 (seededText "null") := by
      decide +kernel
    exact absurd hhash hdigests

end Himadri
