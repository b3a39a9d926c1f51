import Himadri.Core.Request

/-!
# Bodies of partial updates

What a derived `Deserialize` makes of the members of a JSON object, and what it comes to in a
partial update. A field of type `Option<Option<T>>` has three values to take, for a member that is
absent, `null`, or a value; but `Option` reads `null` as its own `None` before the inner one is
asked, so that the field takes only two of them (`field_null`).

An update therefore does what its body says exactly when no member is `null` whose column is not
already empty (`patched_iff`).
-/

namespace Himadri

namespace Serde

variable {α : Type}

/-! ### Deserializing -/

/-- A field with a default. A member that is not a field is ignored, and no field may be given
twice. -/
def field (members : List (String × Json)) (name : String) (default : α)
    (decode : Json → Option α) : Option α :=
  match members.filter (·.1 == name) with
  | [] => some default
  | [m] => decode m.2
  | _ :: _ :: _ => none

/-- `Option<T>`: `null` is `None`. -/
def option (decode : Json → Option α) : Json → Option (Option α)
  | .null => some none
  | v => (decode v).map some

/-- `String`. -/
def string : Json → Option String
  | .string s => some s
  | _ => none

/-- `bool`. -/
def bool : Json → Option Bool
  | .bool b => some b
  | _ => none

/-- `u32` and `u64`, by the number of their values. -/
def unsigned (size : ℕ) : Json → Option ℕ
  | .number (.posInt n) => if n < size then some n else none
  | _ => none

/-- `f64`. -/
def f64 : Json → Option ℚ
  | .number (.posInt n) => some n
  | .number (.negInt n) => some n
  | .number (.float q) => some q
  | _ => none

/-- `Vec<T>`. -/
def array (decode : Json → Option α) : Json → Option (List α)
  | .array items => items.mapM decode
  | _ => none

/-- `serde_json::Value`. -/
def value (v : Json) : Option Json := some v

/-- An element of an array that a struct with defaults is read from, field by field. -/
def element (items : List Json) (i : ℕ) (default : α) (decode : Json → Option α) : Option α :=
  (items[i]?).elim (some default) decode

/-! ### What a body says -/

/-- The member of the name. -/
def member (members : List (String × Json)) (name : String) : Option Json :=
  (members.find? (·.1 == name)).map (·.2)

/-- A field that no `null` can empty keeps its value or takes that of its member. -/
structure Kept (m : Option Json) (decode : Json → Option α) (before after : α) : Prop where
  absent : m = none → after = before
  set : ∀ v a, m = some v → v ≠ .null → decode v = some a → after = a

/-- A nullable field keeps its value, is emptied by `null`, or takes the value of its member, which
`read` gets back from what is stored. -/
structure Patched {σ : Type} (m : Option Json) (decode : Json → Option α) (read : σ → Option α)
    (before after : Option σ) : Prop where
  absent : m = none → after = before
  null : m = some .null → after = none
  set : ∀ v a, m = some v → v ≠ .null → decode v = some a → after.bind read = some a

section Fields

variable {members : List (String × Json)} {name : String} {decode : Json → Option α} {v : Json}
  {default : α}

theorem option_of_ne_null (h : v ≠ .null) : option decode v = (decode v).map some := by
  cases v with
  | null => exact absurd rfl h
  | bool b => rfl
  | number n => rfl
  | string s => rfl
  | array items => rfl
  | object members => rfl

theorem field_absent (h : member members name = none) :
    field members name default decode = some default := by
  have hnone : members.filter (·.1 == name) = [] := by
    rw [List.filter_eq_nil_iff]
    exact List.find?_eq_none.1 (Option.map_eq_none_iff.1 h)
  rw [field, hnone]

/-- A field that is read is read from the member of its name. -/
theorem field_present {a : α} (h : member members name = some v)
    (hfield : field members name default decode = some a) : decode v = some a := by
  obtain ⟨m, hm, rfl⟩ := Option.map_eq_some_iff.1 h
  rw [← List.head?_filter] at hm
  rw [field] at hfield
  split at hfield
  · next hnil =>
    rw [hnil] at hm
    cases hm
  · next m' hone =>
    rw [hone] at hm
    cases hm
    exact hfield
  · cases hfield

/-- `null` leaves a field of nested options unset. -/
theorem field_null {r : Option (Option α)} (h : member members name = some .null)
    (hfield : field members name none (option (option decode)) = some r) : r = none := by
  have hnull := field_present h hfield
  exact (Option.some.inj hnull).symm

/-- A value sets a field of nested options. -/
theorem field_value {r : Option (Option α)} {a : α} (h : member members name = some v)
    (hv : v ≠ .null) (ha : decode v = some a)
    (hfield : field members name none (option (option decode)) = some r) : r = some (some a) := by
  have hread := field_present h hfield
  rw [option_of_ne_null hv, option_of_ne_null hv, ha] at hread
  exact (Option.some.inj hread).symm

/-- **A nullable field is patched exactly when it is not `null` or was empty.** -/
theorem patched_iff {σ : Type} {read : σ → Option α} (store : Option α → Option σ)
    {r : Option (Option α)} {before : Option σ}
    (hfield : field members name none (option (option decode)) = some r)
    (hread : ∀ a, (store (some a)).bind read = some a) :
    Patched (member members name) decode read before ((r.map store).getD before) ↔
      (member members name = some .null → before = none) := by
  constructor
  · intro h hnull
    have hafter := h.null hnull
    rwa [field_null hnull hfield] at hafter
  · intro h
    refine ⟨fun habsent ↦ ?_, fun hnull ↦ ?_, fun v a hv hne ha ↦ ?_⟩
    · rw [field_absent habsent] at hfield
      rw [← Option.some.inj hfield]
      rfl
    · rw [field_null hnull hfield]
      exact h hnull
    · rw [field_value hv hne ha hfield]
      exact hread a

/-- A nullable field that is stored as it is. -/
theorem patched_plain_iff {r : Option (Option α)} {before : Option α}
    (hfield : field members name none (option (option decode)) = some r) :
    Patched (member members name) decode some before (r.getD before) ↔
      (member members name = some .null → before = none) := by
  have h : Patched (member members name) decode some before
      ((r.map fun a ↦ a).getD before) ↔ (member members name = some .null → before = none) :=
    patched_iff (fun a ↦ a) hfield fun _ ↦ rfl
  rwa [Option.map_id'] at h

theorem kept_of_field {r : Option α} {before : α}
    (hfield : field members name none (option decode) = some r) :
    Kept (member members name) decode before (r.getD before) where
  absent habsent := by
    rw [field_absent habsent] at hfield
    rw [← Option.some.inj hfield]
    rfl
  set v a hv hne ha := by
    have hread := field_present hv hfield
    rw [option_of_ne_null hne, ha] at hread
    rw [← Option.some.inj hread]
    rfl

end Fields

end Serde

end Himadri
