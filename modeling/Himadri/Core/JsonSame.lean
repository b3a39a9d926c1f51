import Himadri.Core.RequestJson
import Mathlib.Data.Option.Basic

/-!
# JSON values equal but for the order of their members

Two values are the same when every path through their members and elements leads to the same scalar,
to an array, to an object or to nothing. Here a member that is `null` is not an absent one, and a
number is the number it was written as.

A derived serializer writes the same value for two inputs exactly under a relation on them that is
put together from those of its parts (`WrittenAs`). For the messages of a request that relation is
equality.
-/

namespace Himadri

namespace Json

/-- What a step leads to. -/
def look (v : Json) : Step → Option Json
  | .member name => v.find name
  | .element i => v.elements[i]?

/-- What a path leads to. -/
def along : (v : Json) → (path : List Step) → Option Json
  | v, [] => some v
  | v, s :: path => (v.look s).bind (along · path)

/-- A value without its members and elements. -/
def outline : Json → Json
  | .array _ => .array []
  | .object _ => .object []
  | v => v

/-- The same value, up to the order of members at every depth. -/
def Same (v w : Json) : Prop := ∀ path, (v.along path).map outline = (w.along path).map outline

/-- A value with no members and no elements. -/
def Scalar : Json → Prop
  | .array _ => False
  | .object _ => False
  | _ => True

section Same

variable {v w : Json}

theorem Same.refl (v : Json) : v.Same v := fun _ ↦ rfl

theorem rel_same_iff {o o' : Option Json} : Option.Rel Same o o' ↔
    ∀ path, (o.bind (along · path)).map outline = (o'.bind (along · path)).map outline := by
  rcases o with - | v <;> rcases o' with - | w
  · exact iff_of_true .none fun _ ↦ rfl
  · exact iff_of_false (fun h ↦ by cases h) fun h ↦ by cases h []
  · exact iff_of_false (fun h ↦ by cases h) fun h ↦ by cases h []
  · rw [Option.rel_some_some]
    rfl

/-- The same at the top, and one step further on. -/
theorem same_iff_look :
    v.Same w ↔ v.outline = w.outline ∧ ∀ s, Option.Rel Same (v.look s) (w.look s) := by
  constructor
  · intro h
    exact ⟨Option.some.inj (h []), fun s ↦ rel_same_iff.2 fun path ↦ h (s :: path)⟩
  · rintro ⟨houtline, hlook⟩ (- | ⟨s, path⟩)
    · exact congrArg some houtline
    · exact rel_same_iff.1 (hlook s) path

theorem outline_of_scalar (h : v.Scalar) : v.outline = v := by
  cases v with
  | object members => exact absurd h id
  | array items => exact absurd h id
  | null => rfl
  | bool b => rfl
  | number n => rfl
  | string s => rfl

/-- A value with nothing below it is the same as itself alone. -/
theorem same_iff_eq (h : v.Scalar) : v.Same w ↔ v = w := by
  refine ⟨fun hsame ↦ ?_, fun heq ↦ heq ▸ .refl v⟩
  have houtline := (same_iff_look.1 hsame).1
  rw [outline_of_scalar h] at houtline
  subst houtline
  cases w with
  | object members => exact absurd h id
  | array items => exact absurd h id
  | null => rfl
  | bool b => rfl
  | number n => rfl
  | string s => rfl

theorem same_null_iff : v.Same .null ↔ v = .null := by
  refine ⟨fun h ↦ ?_, fun h ↦ h ▸ .refl .null⟩
  exact ((same_iff_eq (v := .null) trivial).1 fun path ↦ (h path).symm).symm

theorem same_array_iff {items items' : List Json} :
    (array items).Same (.array items') ↔ List.Forall₂ Same items items' := by
  rw [same_iff_look, List.forall₂_iff_get]
  constructor
  · rintro ⟨-, hlook⟩
    have hnone (i : ℕ) : items.length ≤ i ↔ items'.length ≤ i := by
      have helement := hlook (.element i)
      rw [look, look, elements, elements] at helement
      rw [← List.getElem?_eq_none_iff, ← List.getElem?_eq_none_iff]
      rcases hi : items[i]? with - | v <;> rcases hi' : items'[i]? with - | w
      · exact iff_of_true rfl rfl
      · rw [hi, hi'] at helement
        cases helement
      · rw [hi, hi'] at helement
        cases helement
      · exact iff_of_false (fun h ↦ by cases h) fun h ↦ by cases h
    have hlength : items.length = items'.length :=
      le_antisymm ((hnone _).2 le_rfl) ((hnone _).1 le_rfl)
    refine ⟨hlength, fun i hi hi' ↦ ?_⟩
    have helement := hlook (.element i)
    rw [look, look, elements, elements, List.getElem?_eq_getElem hi,
      List.getElem?_eq_getElem hi', Option.rel_some_some] at helement
    exact helement
  · rintro ⟨hlength, helement⟩
    refine ⟨rfl, fun s ↦ ?_⟩
    rcases s with name | i
    · exact .none
    · rw [look, look, elements, elements]
      by_cases hi : i < items.length
      · rw [List.getElem?_eq_getElem hi, List.getElem?_eq_getElem (hlength ▸ hi)]
        exact .some (helement i hi (hlength ▸ hi))
      · rw [List.getElem?_eq_none (by omega), List.getElem?_eq_none (by omega)]
        exact .none

theorem same_object_iff {members members' : List (String × Json)} :
    (object members).Same (.object members') ↔
      ∀ name, Option.Rel Same (Serde.member members name) (Serde.member members' name) := by
  rw [same_iff_look]
  constructor
  · rintro ⟨-, hlook⟩ name
    exact hlook (.member name)
  · refine fun h ↦ ⟨rfl, fun s ↦ ?_⟩
    rcases s with name | i
    · exact h name
    · exact .none

/-! ### Structs -/

/-- What two structs of the same fields are written as is the same when every field is. -/
theorem same_record_iff {fields fields' : List (String × Option Json)} (names : List String)
    (hleft : fields.map Prod.fst = names) (hright : fields'.map Prod.fst = names)
    (hnodup : names.Nodup) :
    (record fields).Same (record fields') ↔
      List.Forall₂ (fun f f' : String × Option Json ↦ Option.Rel Same f.2 f'.2) fields fields' := by
  subst hleft
  have hlength : fields.length = fields'.length := by
    simpa using (congrArg List.length hright).symm
  have hfst (i : ℕ) (hi : i < fields.length) (hi' : i < fields'.length) :
      (fields'.get ⟨i, hi'⟩).1 = (fields.get ⟨i, hi⟩).1 := by
    have hname := congrArg (·[i]?) hright
    simpa [hi, hi'] using hname
  rw [List.forall₂_iff_get, record, record, same_object_iff]
  constructor
  · refine fun h ↦ ⟨hlength, fun i hi hi' ↦ ?_⟩
    have hfield : Option.Rel Same ((record fields).find (fields.get ⟨i, hi⟩).1)
        ((record fields').find (fields.get ⟨i, hi⟩).1) := h _
    rw [find_record_of_mem hnodup (List.get_mem ..), ← hfst i hi hi',
      find_record_of_mem (hright ▸ hnodup) (List.get_mem ..)] at hfield
    exact hfield
  · rintro ⟨-, h⟩ name
    show Option.Rel Same ((record fields).find name) ((record fields').find name)
    by_cases hname : name ∈ fields.map Prod.fst
    · obtain ⟨f, hf, rfl⟩ := List.mem_map.1 hname
      obtain ⟨⟨i, hi⟩, rfl⟩ := List.get_of_mem hf
      have hi' : i < fields'.length := hlength ▸ hi
      rw [find_record_of_mem hnodup (List.get_mem ..), ← hfst i hi hi',
        find_record_of_mem (hright ▸ hnodup) (List.get_mem ..)]
      exact h i hi hi'
    · rw [find_record_of_notMem hname, find_record_of_notMem (hright ▸ hname)]
      exact .none

end Same

end Json

open Json

/-! ### Serializers -/

/-- Two inputs are written as the same value exactly when they are related. -/
def WrittenAs {α : Type} (encode : α → Json) (R : α → α → Prop) : Prop :=
  ∀ a b, (encode a).Same (encode b) ↔ R a b

section WrittenAs

variable {α : Type} {encode : α → Json} {R : α → α → Prop}

theorem writes_scalar (hscalar : ∀ a, (encode a).Scalar) (hinj : Function.Injective encode) :
    WrittenAs encode Eq := fun a _ ↦ (same_iff_eq (hscalar a)).trans hinj.eq_iff

theorem writes_string : WrittenAs .string Eq :=
  writes_scalar (fun _ ↦ trivial) fun _ _ h ↦ Json.string.inj h

theorem writes_nat : WrittenAs Json.nat Eq :=
  writes_scalar (fun _ ↦ trivial) fun _ _ h ↦ JsonNumber.posInt.inj (Json.number.inj h)

theorem writes_float : WrittenAs floatJson Eq :=
  writes_scalar (fun _ ↦ trivial) fun _ _ h ↦ JsonNumber.float.inj (Json.number.inj h)

theorem WrittenAs.list (h : WrittenAs encode R) : WrittenAs (Json.list encode) (List.Forall₂ R) := by
  intro l l'
  have hR : (fun a b ↦ (encode a).Same (encode b)) = R := funext₂ fun a b ↦ propext (h a b)
  rw [Json.list, Json.list, same_array_iff, List.forall₂_map_left_iff, List.forall₂_map_right_iff,
    hR]

theorem WrittenAs.listEq (h : WrittenAs encode Eq) : WrittenAs (Json.list encode) Eq := by
  intro l l'
  rw [h.list l l', List.forall₂_eq_eq_eq]

theorem rel_eq_iff {o o' : Option α} : Option.Rel Eq o o' ↔ o = o' := by
  rcases o with - | a <;> rcases o' with - | b <;> simp [Option.rel_some_some]

/-- A member that is left out where there is none. -/
theorem WrittenAs.skipped (h : WrittenAs encode R) (o o' : Option α) :
    Option.Rel Same (o.map encode) (o'.map encode) ↔ Option.Rel R o o' := by
  rcases o with - | a <;> rcases o' with - | b
  · exact iff_of_true .none .none
  · exact iff_of_false (fun h ↦ by cases h) fun h ↦ by cases h
  · exact iff_of_false (fun h ↦ by cases h) fun h ↦ by cases h
  · rw [Option.map_some, Option.map_some, Option.rel_some_some, Option.rel_some_some, h a b]

theorem WrittenAs.skippedEq (h : WrittenAs encode Eq) (o o' : Option α) :
    Option.Rel Same (o.map encode) (o'.map encode) ↔ o = o' :=
  (h.skipped o o').trans rel_eq_iff

/-- A member that is `null` where there is none. -/
theorem WrittenAs.orNull (h : WrittenAs encode R) (hne : ∀ a, encode a ≠ .null) (o o' : Option α) :
    ((o.map encode).getD .null).Same ((o'.map encode).getD .null) ↔ Option.Rel R o o' := by
  rcases o with - | a <;> rcases o' with - | b
  · exact iff_of_true (.refl .null) .none
  · refine iff_of_false (fun h ↦ hne b ?_) fun h ↦ by cases h
    exact ((same_iff_eq (v := .null) trivial).1 h).symm
  · exact iff_of_false (fun h ↦ hne a (same_null_iff.1 h)) fun h ↦ by cases h
  · rw [Option.rel_some_some, ← h a b]
    rfl

theorem WrittenAs.orNullEq (h : WrittenAs encode Eq) (hne : ∀ a, encode a ≠ .null) (o o' : Option α) :
    ((o.map encode).getD .null).Same ((o'.map encode).getD .null) ↔ o = o' :=
  (h.orNull hne o o').trans rel_eq_iff

end WrittenAs

/-! ### The parts of a request -/

theorem writes_role : WrittenAs Role.json Eq := by
  refine writes_scalar (fun _ ↦ trivial) fun r r' h ↦ ?_
  have hname : r.lowercase = r'.lowercase := Json.string.inj h
  rcases r with - | - | - | - <;> rcases r' with - | - | - | - <;>
    first | rfl | exact absurd hname (by decide)

theorem writes_functionCall : WrittenAs functionCallJson Eq := by
  rintro ⟨name, arguments⟩ ⟨name', arguments'⟩
  refine (same_record_iff ["name", "arguments"] rfl rfl (by decide)).trans ?_
  simp [Option.rel_some_some, writes_string _ _]

theorem writes_toolCall : WrittenAs ToolCall.json Eq := by
  rintro ⟨id, toolType, name, arguments⟩ ⟨id', toolType', name', arguments'⟩
  refine (same_record_iff ["id", "type", "function"] rfl rfl (by decide)).trans ?_
  simp [Option.rel_some_some, writes_string _ _, writes_functionCall _ _]

theorem writes_imageUrlDetail : WrittenAs imageUrlDetailJson Eq := by
  rintro ⟨url, detail⟩ ⟨url', detail'⟩
  have hdetail : (Json.ofOption detail).Same (Json.ofOption detail') ↔ detail = detail' := by
    have h := writes_string.orNullEq (fun _ hnull ↦ by cases hnull) detail detail'
    rcases detail with - | d <;> rcases detail' with - | d' <;> exact h
  refine (same_record_iff ["url", "detail"] rfl rfl (by decide)).trans ?_
  simp [Option.rel_some_some, writes_string _ _, hdetail]

theorem writes_contentPart : WrittenAs ContentPart.json Eq := by
  intro p p'
  have htag : ∀ fields fields' : List (String × Option Json),
      (record (("type", some (.string "text")) :: fields)).Same
        (record (("type", some (.string "image_url")) :: fields')) → False := by
    intro fields fields' h
    have htype := same_object_iff.1 h "type"
    rw [List.filterMap_cons, List.filterMap_cons, Option.map_some, Option.map_some, member_cons,
      member_cons, if_pos rfl, if_pos rfl, Option.rel_some_some, writes_string] at htype
    exact absurd htype (by decide)
  rcases p with s | ⟨url, detail⟩ <;> rcases p' with s' | ⟨url', detail'⟩
  · refine (same_record_iff ["type", "text"] rfl rfl (by decide)).trans ?_
    simp [Option.rel_some_some, writes_string _ _]
  · exact iff_of_false (fun h ↦ htag _ _ h) fun h ↦ by cases h
  · exact iff_of_false (fun h ↦ htag _ _ fun path ↦ (h path).symm) fun h ↦ by cases h
  · refine (same_record_iff ["type", "image_url"] rfl rfl (by decide)).trans ?_
    simp [Option.rel_some_some, writes_string _ _, writes_imageUrlDetail _ _]

theorem writes_messageContent : WrittenAs MessageContent.json Eq := by
  intro c c'
  rcases c with s | ps <;> rcases c' with s' | ps'
  · rw [MessageContent.json, MessageContent.json, writes_string, MessageContent.text.injEq]
  · refine iff_of_false (fun h ↦ ?_) fun h ↦ by cases h
    cases (same_iff_eq (v := .string s) trivial).1 h
  · refine iff_of_false (fun h ↦ ?_) fun h ↦ by cases h
    cases (same_iff_eq (v := .string s') trivial).1 fun path ↦ (h path).symm
  · rw [MessageContent.json, MessageContent.json, writes_contentPart.listEq,
      MessageContent.parts.injEq]

theorem writes_message : WrittenAs Message.json Eq := by
  rintro ⟨role, content, name, toolCalls, toolCallId⟩
    ⟨role', content', name', toolCalls', toolCallId'⟩
  refine (same_record_iff ["role", "content", "name", "tool_calls", "tool_call_id"] rfl rfl (by decide)).trans ?_
  simp [Option.rel_some_some, writes_role _ _, writes_messageContent.skippedEq,
    writes_string.skippedEq, writes_toolCall.listEq.skippedEq]

/-- The same tool, up to the order of members in its parameters. -/
structure Tool.SameAs (t t' : Tool) : Prop where
  toolType : t.toolType = t'.toolType
  functionName : t.functionName = t'.functionName
  description : t.description = t'.description
  parameters : Option.Rel Same t.parameters t'.parameters

theorem writes_tool : WrittenAs Tool.json Tool.SameAs := by
  rintro ⟨toolType, name, description, parameters⟩ ⟨toolType', name', description', parameters'⟩
  refine (same_record_iff ["type", "function"] rfl rfl (by decide)).trans ?_
  have hfunction : (toolFunctionJson (name, description, parameters)).Same
      (toolFunctionJson (name', description', parameters')) ↔
        name = name' ∧ description = description' ∧ Option.Rel Same parameters parameters' := by
    refine (same_record_iff ["name", "description", "parameters"] rfl rfl (by decide)).trans ?_
    simp [Option.rel_some_some, writes_string _ _, writes_string.skippedEq]
  simp [Option.rel_some_some, writes_string _ _, hfunction]
  constructor
  · rintro ⟨htype, hname, hdescription, hparameters⟩
    exact ⟨htype, hname, hdescription, hparameters⟩
  · rintro ⟨htype, hname, hdescription, hparameters⟩
    exact ⟨htype, hname, hdescription, hparameters⟩

end Himadri
