import Himadri.Core.Serde

/-!
# Reading and building JSON

The accessors of `serde_json::Value`, which answer for every value, and those of `serde_json::Map`
and of `u32`, which may panic: an absent key, and an addition that overflows in a build with
overflow checks. Objects are built in the order of the source; nothing reads that order.
-/

namespace Except

variable {ε α β : Type}

/-- Both parts of a call that went through did. -/
theorem bind_eq_ok {x : Except ε α} {f : α → Except ε β} {b : β} (h : (x >>= f) = .ok b) :
    ∃ a, x = .ok a ∧ f a = .ok b := by
  rcases x with e | a
  · cases h
  · exact ⟨a, rfl, h⟩

theorem map_eq_ok {x : Except ε α} {f : α → β} {b : β} (h : x.map f = .ok b) :
    ∃ a, x = .ok a ∧ f a = b := by
  rcases x with e | a
  · cases h
  · exact ⟨a, rfl, Except.ok.inj h⟩

end Except

namespace Himadri

/-- What is known of text: `serde_json`'s reading of it, and what it says of a value that does not
decode. -/
structure JsonText where
  fromStr : String → Except String Json
  why : Json → String

/-- What ends a thread. -/
inductive Panic
  | absentKey (name : String)
  | overflow
  deriving DecidableEq

namespace Json

/-- `Value::get` with a name. -/
def find (v : Json) (name : String) : Option Json :=
  match v with
  | .object members => Serde.member members name
  | _ => none

/-- `Value::index` with a name: a missing member yields `null`. -/
def get (v : Json) (name : String) : Json := (v.find name).getD .null

/-- `Value::as_str`. -/
def asStr : Json → Option String
  | .string s => some s
  | _ => none

/-- `Value::as_array`. -/
def asArray : Json → Option (List Json)
  | .array items => some items
  | _ => none

/-- `Value::as_object`. -/
def asObject : Json → Option (List (String × Json))
  | .object members => some members
  | _ => none

/-- `Value::as_u64`. -/
def asU64 : Json → Option ℕ
  | .number (.posInt n) => some n
  | _ => none

/-- `value == "text"`. -/
def isText (v : Json) (s : String) : Bool := v.asStr == some s

/-- A number. -/
def nat (n : ℕ) : Json := .number (.posInt n)

/-- A string, or `null`. -/
def ofOption (s : Option String) : Json := s.elim .null .string

/-- `value[name] = member`, on an object. -/
def set (v : Json) (name : String) (member : Json) : Json :=
  match v with
  | .object members =>
    if (Serde.member members name).isSome then
      .object (members.map fun m ↦ if m.1 == name then (name, member) else m)
    else .object (members ++ [(name, member)])
  | v => v

/-- `value[name] = member`, where there is one to set. -/
def setSome (v : Json) (name : String) (member : Option Json) : Json :=
  member.elim v (v.set name)

end Json

/-- `Map::index`: an absent key panics. -/
def mapIndex (members : List (String × Json)) (name : String) : Except Panic Json :=
  match Serde.member members name with
  | some v => .ok v
  | none => .error (.absentKey name)

/-- A token count, `as u32`: 0 for what is no `u64`, and the low 32 bits. -/
def tokenCount (v : Json) : ℕ := (v.asU64.getD 0) % UInt32.size

/-- `u32` addition. -/
def addU32 (a b : ℕ) : Except Panic ℕ :=
  if a + b < UInt32.size then .ok (a + b) else .error .overflow

theorem member_cons (name name' : String) (v : Json) (members : List (String × Json)) :
    Serde.member ((name, v) :: members) name' =
      if name = name' then some v else Serde.member members name' := by
  rw [Serde.member, List.find?_cons]
  by_cases hname : name = name'
  · rw [if_pos hname, beq_iff_eq.2 hname]
    rfl
  · rw [if_neg hname, beq_eq_false_iff_ne.2 hname]
    rfl

namespace Json

theorem get_cons (name name' : String) (v : Json) (members : List (String × Json)) :
    get (.object ((name, v) :: members)) name' =
      if name = name' then v else get (.object members) name' := by
  rw [get, find, member_cons]
  split
  · rfl
  · rfl

section Set

variable {name name' : String} {v w : Json} {members : List (String × Json)}

theorem member_replace (members : List (String × Json)) :
    Serde.member (members.map fun m ↦ if m.1 == name then (name, w) else m) name' =
      if name = name' then (Serde.member members name).map fun _ ↦ w
      else Serde.member members name' := by
  induction members with
  | nil =>
    split
    · rfl
    · rfl
  | cons m members ih =>
    obtain ⟨n, v⟩ := m
    rw [List.map_cons, member_cons, member_cons]
    by_cases hn : n = name
    · rw [hn, beq_self_eq_true, if_pos rfl, if_pos rfl, member_cons, ih]
      split
      · rfl
      · rfl
    · rw [beq_eq_false_iff_ne.2 hn, if_neg Bool.false_ne_true, if_neg hn, member_cons, ih]
      by_cases hname : name = name'
      · rw [if_pos hname, if_pos hname, if_neg (by rwa [← hname])]
      · rw [if_neg hname, if_neg hname]

theorem member_concat (members : List (String × Json)) :
    Serde.member (members ++ [(name, w)]) name' =
      (Serde.member members name').or (if name = name' then some w else none) := by
  induction members with
  | nil => exact member_cons name name' w []
  | cons m members ih =>
    obtain ⟨n, v⟩ := m
    rw [List.cons_append, member_cons, member_cons, ih]
    split
    · rfl
    · rfl

theorem get_set_self (members : List (String × Json)) :
    ((Json.object members).set name w).get name = w := by
  rcases hmember : Serde.member members name with - | v
  · rw [set, if_neg (by rw [hmember]; exact Bool.false_ne_true), get, find, member_concat, hmember,
      if_pos rfl]
    rfl
  · rw [set, if_pos (by rw [hmember]; rfl), get, find, member_replace, hmember, if_pos rfl]
    rfl

theorem get_set_of_ne (hne : name ≠ name') : (v.set name w).get name' = v.get name' := by
  rcases v with - | b | n | s | items | members
  · rfl
  · rfl
  · rfl
  · rfl
  · rfl
  · rw [set]
    split
    · rw [get, find, member_replace, if_neg hne, get, find]
    · rw [get, find, member_concat, if_neg hne, Option.or_none, get, find]

theorem get_setSome_of_ne (hne : name ≠ name') (m : Option Json) :
    (v.setSome name m).get name' = v.get name' := by
  rcases m with - | m
  · rfl
  · exact get_set_of_ne hne

theorem get_setSome_self (hnone : Serde.member members name = none) (m : Option Json) :
    ((Json.object members).setSome name m).get name = m.getD .null := by
  rcases m with - | m
  · show ((Serde.member members name).getD .null) = _
    rw [hnone]
  · exact get_set_self members

end Set

end Json

theorem mapIndex_eq_ok {members : List (String × Json)} {name : String} {v : Json} :
    mapIndex members name = .ok v ↔ Serde.member members name = some v := by
  rw [mapIndex]
  rcases Serde.member members name with - | w
  · exact iff_of_false (fun h ↦ by cases h) fun h ↦ by cases h
  · exact ⟨fun h ↦ congrArg some (Except.ok.inj h), fun h ↦ congrArg Except.ok (Option.some.inj h)⟩

theorem addU32_eq_ok {a b n : ℕ} : addU32 a b = .ok n ↔ a + b < UInt32.size ∧ a + b = n := by
  rw [addU32]
  split
  · next h => exact ⟨fun heq ↦ ⟨h, Except.ok.inj heq⟩, fun heq ↦ congrArg Except.ok heq.2⟩
  · next h => exact iff_of_false (fun heq ↦ by cases heq) fun heq ↦ h heq.1

end Himadri
