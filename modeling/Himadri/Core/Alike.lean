import Himadri.Core.Json
import Mathlib.Data.List.Forall2
import Mathlib.Data.Rat.Cast.Defs

/-!
# JSON values alike at every depth

Two values are alike when every path through their members and elements leads to the same scalar, to
arrays of one length, or to objects. A member that is absent and one that is `null` look the same,
and a number is what it counts, however it is written.

A value that is decoded and encoded again is alike to what it was under a condition on it that is
put together, like the decoder, from those of its parts (`Codec`).
-/

namespace Himadri

/-- The number itself. -/
def JsonNumber.toRat : JsonNumber → ℚ
  | .posInt n => n
  | .negInt n => n
  | .float q => q

namespace Json

/-- `serde_json::Map`: one value under a name. -/
structure Map where
  members : List (String × Json)
  distinct : (members.map Prod.fst).Nodup

/-- What a path through a value goes by. -/
inductive Step
  | member (name : String)
  | element (i : ℕ)

/-- The elements of an array. -/
def elements : Json → List Json
  | .array items => items
  | _ => []

/-- `Value::index`, with `null` for what is not there. -/
def step (v : Json) : Step → Json
  | .member name => v.get name
  | .element i => (v.elements[i]?).getD .null

/-- What is at the end of a path. -/
def pointer (v : Json) (path : List Step) : Json := path.foldl step v

/-- What a value is without its members and elements. -/
inductive Shape
  | null
  | bool (b : Bool)
  | number (q : ℚ)
  | string (s : String)
  | array (length : ℕ)
  | object
  deriving DecidableEq

/-- The shape of a value. -/
def shape : Json → Shape
  | .null => .null
  | .bool b => .bool b
  | .number n => .number n.toRat
  | .string s => .string s
  | .array items => .array items.length
  | .object _ => .object

/-- The same shapes at every depth. -/
def Alike (v w : Json) : Prop := ∀ path, (v.pointer path).shape = (w.pointer path).shape

section Alike

variable {v w : Json}

theorem Alike.refl (v : Json) : v.Alike v := fun _ ↦ rfl

/-- Alike at the top, and alike one step further on. -/
theorem alike_iff_step : v.Alike w ↔ v.shape = w.shape ∧ ∀ s, (v.step s).Alike (w.step s) := by
  constructor
  · intro h
    exact ⟨h [], fun s path ↦ h (s :: path)⟩
  · rintro ⟨hshape, hstep⟩ (- | ⟨s, path⟩)
    · exact hshape
    · exact hstep s path

/-- Where nothing lies below, the shape is all there is. -/
theorem alike_of_shape (h : v.shape = w.shape) (hv : ∀ s, v.step s = .null)
    (hw : ∀ s, w.step s = .null) : v.Alike w :=
  alike_iff_step.2 ⟨h, fun s ↦ by rw [hv, hw]; exact .refl _⟩

theorem alike_number {n n' : JsonNumber} (h : n.toRat = n'.toRat) :
    (number n).Alike (.number n') := by
  refine alike_of_shape (congrArg Shape.number h) (fun s ↦ ?_) (fun s ↦ ?_)
  · rcases s with name | i <;> rfl
  · rcases s with name | i <;> rfl

theorem alike_null_iff : v.Alike .null ↔ v = .null := by
  constructor
  · intro h
    have hshape : v.shape = .null := h []
    cases v with
    | null => rfl
    | bool b => cases hshape
    | number n => cases hshape
    | string s => cases hshape
    | array items => cases hshape
    | object members => cases hshape
  · rintro rfl
    exact .refl _

theorem alike_string_iff {s : String} : v.Alike (.string s) ↔ v = .string s := by
  constructor
  · intro h
    have hshape : v.shape = .string s := h []
    cases v with
    | string s' => rw [Shape.string.inj hshape]
    | null => cases hshape
    | bool b => cases hshape
    | number n => cases hshape
    | array items => cases hshape
    | object members => cases hshape
  · rintro rfl
    exact .refl _

theorem alike_array_iff {items items' : List Json} :
    (array items).Alike (.array items') ↔ List.Forall₂ Alike items items' := by
  rw [alike_iff_step, List.forall₂_iff_get]
  constructor
  · rintro ⟨hlength, hstep⟩
    refine ⟨Shape.array.inj hlength, fun i hi hi' ↦ ?_⟩
    have helement := hstep (.element i)
    rw [step, step, elements, elements, List.getElem?_eq_getElem hi,
      List.getElem?_eq_getElem hi'] at helement
    exact helement
  · rintro ⟨hlength, helement⟩
    refine ⟨congrArg Shape.array hlength, fun s ↦ ?_⟩
    rcases s with name | i
    · exact .refl .null
    · rw [step, step, elements, elements]
      by_cases hi : i < items.length
      · rw [List.getElem?_eq_getElem hi, List.getElem?_eq_getElem (hlength ▸ hi)]
        exact helement i hi (hlength ▸ hi)
      · rw [List.getElem?_eq_none (by omega), List.getElem?_eq_none (by omega)]
        exact .refl .null

/-! ### Structs -/

/-- A derived `Serialize`: the fields in their order, without those skipped. -/
def record (fields : List (String × Option Json)) : Json :=
  .object (fields.filterMap fun f ↦ f.2.map (f.1, ·))

/-- `Serialize` of a list. -/
def list {α : Type} (encode : α → Json) (l : List α) : Json := .array (l.map encode)

/-- An object with no member of another name, unless it is `null`. -/
def Closed (v : Json) (names : List String) : Prop :=
  v.asObject.isSome ∧ ∀ name ∉ names, v.get name = .null

theorem find_record_of_notMem {fields : List (String × Option Json)} {name : String}
    (h : name ∉ fields.map Prod.fst) : (record fields).find name = none := by
  induction fields with
  | nil => rfl
  | cons f fields ih =>
    obtain ⟨n, - | v⟩ := f
    · exact ih (List.not_mem_of_not_mem_cons h)
    · refine (member_cons n name v _).trans ?_
      rw [if_neg (List.ne_of_not_mem_cons h).symm]
      exact ih (List.not_mem_of_not_mem_cons h)

theorem find_record_of_mem {fields : List (String × Option Json)}
    (hnodup : (fields.map Prod.fst).Nodup) {f : String × Option Json} (h : f ∈ fields) :
    (record fields).find f.1 = f.2 := by
  induction fields with
  | nil => exact absurd h List.not_mem_nil
  | cons f' fields ih =>
    rw [List.map_cons, List.nodup_cons] at hnodup
    rcases List.mem_cons.1 h with rfl | hf
    · obtain ⟨n, - | v⟩ := f
      · show (record fields).find n = none
        exact find_record_of_notMem hnodup.1
      · exact (member_cons n n v _).trans (if_pos rfl)
    · have hne : f'.1 ≠ f.1 := fun heq ↦ hnodup.1 (heq ▸ List.mem_map_of_mem hf)
      obtain ⟨n, - | v⟩ := f'
      · exact ih hnodup.2 hf
      · exact ((member_cons n f.1 v _).trans (if_neg hne)).trans (ih hnodup.2 hf)

theorem get_record_of_notMem {fields : List (String × Option Json)} {name : String}
    (h : name ∉ fields.map Prod.fst) : (record fields).get name = .null := by
  rw [get, find_record_of_notMem h, Option.getD_none]

theorem get_record_of_mem {fields : List (String × Option Json)}
    (hnodup : (fields.map Prod.fst).Nodup) {f : String × Option Json} (h : f ∈ fields) :
    (record fields).get f.1 = f.2.getD .null := by
  rw [get, find_record_of_mem hnodup h]

/-- Only an object is alike to what a struct is written as. -/
theorem isSome_asObject_of_alike {fields : List (String × Option Json)}
    (h : v.Alike (record fields)) : v.asObject.isSome := by
  have hshape : v.shape = .object := h []
  cases v with
  | object members => rfl
  | null => cases hshape
  | bool b => cases hshape
  | number n => cases hshape
  | string s => cases hshape
  | array items => cases hshape

/-- What a struct is written as is alike to an object of its fields. -/
theorem alike_record_iff {fields : List (String × Option Json)} (names : List String)
    (hnames : fields.map Prod.fst = names) (hnodup : names.Nodup) :
    v.Alike (record fields) ↔
      v.Closed names ∧ ∀ f ∈ fields, (v.get f.1).Alike (f.2.getD .null) := by
  subst hnames
  constructor
  · intro h
    obtain ⟨-, hstep⟩ := alike_iff_step.1 h
    refine ⟨⟨isSome_asObject_of_alike h, fun name hname ↦ ?_⟩, fun f hf ↦ ?_⟩
    · have hmember := hstep (.member name)
      rw [step, step, get_record_of_notMem hname, alike_null_iff] at hmember
      exact hmember
    · have hmember := hstep (.member f.1)
      rw [step, step, get_record_of_mem hnodup hf] at hmember
      exact hmember
  · rintro ⟨⟨hobject, hclosed⟩, hfields⟩
    cases v with
    | object members =>
      refine alike_iff_step.2 ⟨rfl, fun s ↦ ?_⟩
      rcases s with name | i
      · rw [step, step]
        by_cases hname : name ∈ fields.map Prod.fst
        · obtain ⟨f, hf, rfl⟩ := List.mem_map.1 hname
          rw [get_record_of_mem hnodup hf]
          exact hfields f hf
        · rw [hclosed name hname, get_record_of_notMem hname]
          exact .refl .null
      · exact .refl .null
    | null => cases hobject
    | bool b => cases hobject
    | number n => cases hobject
    | string s => cases hobject
    | array items => cases hobject

/-- `null` has no elements. -/
theorem forall_elements_iff {p : Json → Prop} :
    (v ≠ .null → ∀ item ∈ v.elements, p item) ↔ ∀ item ∈ v.elements, p item := by
  refine ⟨fun h item hitem ↦ h (fun hnull ↦ ?_) item hitem, fun h _ ↦ h⟩
  rw [hnull] at hitem
  exact absurd hitem List.not_mem_nil

end Alike

end Json

/-! ### Decoding and encoding -/

/-- What is decoded is encoded alike exactly under the condition. -/
def Codec {α : Type} (decode : Json → Option α) (encode : α → Json) (plain : Json → Prop) : Prop :=
  ∀ v a, decode v = some a → (v.Alike (encode a) ↔ plain v)

namespace Serde

variable {α : Type}

/-- A field of a derived `Deserialize`, by its name in an object and by its place in an array:
`missing` where the object lacks it, `short` where the array ends before it. -/
def structField (v : Json) (i : ℕ) (name : String) (missing short : Option α)
    (decode : Json → Option α) : Option α :=
  match v with
  | .object members =>
    match members.filter (·.1 == name) with
    | [] => missing
    | [m] => decode m.2
    | _ :: _ :: _ => none
  | .array items => (items[i]?).elim short decode
  | _ => none

/-- A field that has to be there is the member of its name. -/
theorem decode_get {v : Json} {i : ℕ} {name : String} {short : Option α}
    {decode : Json → Option α} {a : α} (hobject : v.asObject.isSome)
    (h : structField v i name none short decode = some a) : decode (v.get name) = some a := by
  cases v with
  | object members =>
    have hget : (Json.object members).get name =
        (((members.filter (·.1 == name)).head?).map (·.2)).getD .null := by
      rw [List.head?_filter]
      rfl
    rw [hget]
    rw [structField] at h
    split at h
    · cases h
    · next m hone =>
      rw [hone]
      exact h
    · cases h
  | null => cases hobject
  | bool b => cases hobject
  | number n => cases hobject
  | string s => cases hobject
  | array items => cases hobject

end Serde

namespace Codec

variable {α : Type} {decode : Json → Option α} {encode : α → Json} {plain : Json → Prop}

theorem string : Codec Serde.string .string fun _ ↦ True := by
  intro v s h
  cases v with
  | string s' =>
    obtain rfl := Option.some_inj.1 h
    exact iff_of_true (.refl _) trivial
  | null => cases h
  | bool b => cases h
  | number n => cases h
  | array items => cases h
  | object members => cases h

theorem unsigned (size : ℕ) : Codec (Serde.unsigned size) Json.nat fun _ ↦ True := by
  intro v n h
  rw [Serde.unsigned.eq_def] at h
  split at h
  · split at h
    · obtain rfl := Option.some_inj.1 h
      exact iff_of_true (.refl _) trivial
    · cases h
  · cases h

theorem f64 : Codec Serde.f64 (fun q ↦ .number (.float q)) fun _ ↦ True := by
  intro v q h
  refine iff_of_true ?_ trivial
  rw [Serde.f64.eq_def] at h
  split at h
  · obtain rfl := Option.some_inj.1 h
    exact Json.alike_number rfl
  · obtain rfl := Option.some_inj.1 h
    exact Json.alike_number rfl
  · obtain rfl := Option.some_inj.1 h
    exact Json.alike_number rfl
  · cases h

theorem value : Codec Serde.value id fun _ ↦ True := by
  intro v w h
  obtain rfl := Option.some_inj.1 h
  exact iff_of_true (.refl _) trivial

/-- `Option<T>`, written back as `null` where it is `None`. -/
theorem option (h : Codec decode encode plain) :
    Codec (Serde.option decode) (fun o ↦ o.elim .null encode) fun v ↦ v ≠ .null → plain v := by
  intro v o ho
  by_cases hv : v = .null
  · subst hv
    obtain rfl := Option.some_inj.1 ho
    exact iff_of_true (.refl _) fun hne ↦ absurd rfl hne
  · rw [Serde.option_of_ne_null hv, Option.map_eq_some_iff] at ho
    obtain ⟨a, ha, rfl⟩ := ho
    exact (h v a ha).trans ⟨fun hp _ ↦ hp, fun hp ↦ hp hv⟩

theorem array (h : Codec decode encode plain) :
    Codec (Serde.array decode) (Json.list encode) fun v ↦
      ∀ item ∈ v.elements, plain item := by
  intro v l hl
  cases v with
  | array items =>
    rw [Json.list, Json.alike_array_iff]
    change items.mapM decode = some l at hl
    change List.Forall₂ _ items _ ↔ ∀ item ∈ items, plain item
    induction items generalizing l with
    | nil =>
      obtain rfl := Option.some_inj.1 hl
      exact iff_of_true .nil fun item hitem ↦ absurd hitem List.not_mem_nil
    | cons item items ih =>
      rw [List.mapM_cons, Option.bind_eq_bind, Option.bind_eq_some_iff] at hl
      obtain ⟨a, ha, hl⟩ := hl
      rw [Option.bind_eq_bind, Option.bind_eq_some_iff] at hl
      obtain ⟨rest, hrest, hl⟩ := hl
      obtain rfl := Option.some_inj.1 hl
      rw [List.map_cons, List.forall₂_cons, List.forall_mem_cons, h item a ha, ih rest hrest]
  | null => cases hl
  | bool b => cases hl
  | number n => cases hl
  | string s => cases hl
  | object members => cases hl

/-- The field of an object. -/
theorem structField (h : Codec decode encode plain) {missing short : Option α} {v : Json} {i : ℕ}
    {name : String} {a : α} (hobject : v.asObject.isSome)
    (hmissing : ∀ a, missing = some a → (Json.null.Alike (encode a) ↔ plain .null))
    (ha : Serde.structField v i name missing short decode = some a) :
    (v.get name).Alike (encode a) ↔ plain (v.get name) := by
  cases v with
  | object members =>
    have hget : (Json.object members).get name =
        (((members.filter (·.1 == name)).head?).map (·.2)).getD .null := by
      rw [List.head?_filter]
      rfl
    rw [hget]
    rw [Serde.structField] at ha
    split at ha
    · next hnil =>
      rw [hnil]
      exact hmissing a ha
    · next m hone =>
      rw [hone]
      exact h m.2 a ha
    · cases ha
  | null => cases hobject
  | bool b => cases hobject
  | number n => cases hobject
  | string s => cases hobject
  | array items => cases hobject

/-- A field that has to be there. -/
theorem requiredField (h : Codec decode encode plain) {short : Option α} {v : Json} {i : ℕ}
    {name : String} {a : α} (hobject : v.asObject.isSome)
    (ha : Serde.structField v i name none short decode = some a) :
    (v.get name).Alike (encode a) ↔ plain (v.get name) :=
  h.structField hobject (fun _ hnone ↦ by cases hnone) ha

/-- A field that is left out where it is `None`, or written as `null`. -/
theorem optionField (h : Codec decode encode plain) {short : Option (Option α)} {v : Json} {i : ℕ}
    {name : String} {o : Option α} (hobject : v.asObject.isSome)
    (ho : Serde.structField v i name (some none) short (Serde.option decode) = some o) :
    (v.get name).Alike ((o.map encode).getD .null) ↔
      (v.get name ≠ .null → plain (v.get name)) := by
  have hwritten : (o.map encode).getD .null = o.elim .null encode := by
    cases o with
    | none => rfl
    | some a => rfl
  rw [hwritten]
  refine h.option.structField hobject (fun o' hnone ↦ ?_) ho
  obtain rfl := Option.some_inj.1 hnone
  exact iff_of_true (.refl _) fun hne ↦ absurd rfl hne

end Codec

end Himadri
