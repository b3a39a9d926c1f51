import Himadri.Core.Alike
import Himadri.Core.KeyMap

/-!
# Reading back what was written

The derived `Deserialize` of a struct on what its derived `Serialize` writes: a field is read from
the member it was written as, and where it was left out it is missing (`structField_record`). With
that, a type reads back as soon as the types of its fields do.

A map is written in an order of its iterator, which differs from run to run; what is read back does
not depend on it (`map_written`).
-/

/-- The entries of a map whose values were changed in place. -/
theorem KeyMap.IteratedAs.mapValues {κ α β : Type*} {m : KeyMap κ α} {entries : List (κ × α)}
    (h : m.IteratedAs entries) (f : α → β) :
    (m.mapValues f).IteratedAs (entries.map fun e ↦ (e.1, f e.2)) where
  nodup := by
    rw [List.map_map]
    exact h.nodup
  get_iff k b := by
    rw [KeyMap.get_mapValues, Option.map_eq_some_iff, List.mem_map]
    constructor
    · rintro ⟨a, hget, rfl⟩
      exact ⟨(k, a), (h.get_iff k a).1 hget, rfl⟩
    · rintro ⟨e, he, heq⟩
      obtain ⟨rfl, rfl⟩ := Prod.mk.inj heq
      exact ⟨e.2, (h.get_iff _ _).2 he, rfl⟩

namespace Himadri

namespace Serde

variable {α : Type}

/-- A unit variant, by its name. -/
def variant (names : String → Option α) : Json → Option α
  | .string s => names s
  | .object [(s, .null)] => names s
  | _ => none

/-- `HashMap<String, T>`: a later entry of a name replaces an earlier one. -/
def map (decode : Json → Option α) : Json → Option (KeyMap String α)
  | .object members =>
    (members.mapM fun m ↦ (decode m.2).map fun a ↦ (m.1, a)).map KeyMap.empty.insertAll
  | _ => none

/-- `Serialize` of an `Option` that is not skipped. -/
def orNull (encode : α → Json) (o : Option α) : Json := o.elim .null encode

/-! ### Values -/

section Values

variable {decode : Json → Option α} {encode : α → Json}

theorem string_ne_null (s : String) : Json.string s ≠ .null := fun h ↦ by cases h

theorem record_ne_null (fields : List (String × Option Json)) : Json.record fields ≠ .null :=
  fun h ↦ by cases h

theorem list_ne_null (l : List α) : Json.list encode l ≠ .null := fun h ↦ by cases h

theorem unsigned_nat {size n : ℕ} (h : n < size) : unsigned size (Json.nat n) = some n := if_pos h

theorem array_list {l : List α} (h : ∀ a ∈ l, decode (encode a) = some a) :
    array decode (Json.list encode l) = some l := by
  show (l.map encode).mapM decode = some l
  induction l with
  | nil => rfl
  | cons a l ih =>
    obtain ⟨ha, hl⟩ := List.forall_mem_cons.1 h
    rw [List.map_cons, List.mapM_cons, ha, ih hl]
    rfl

theorem option_orNull {o : Option α} (h : ∀ a ∈ o, decode (encode a) = some a)
    (hnull : ∀ a, encode a ≠ .null) : option decode (orNull encode o) = some o := by
  rcases o with - | a
  · rfl
  · show option decode (encode a) = some (some a)
    rw [option_of_ne_null (hnull a), h a rfl]
    rfl

theorem option_string (o : Option String) : option string (orNull .string o) = some o :=
  option_orNull (fun _ _ ↦ rfl) string_ne_null

/-- A field that is left out where it is `None`. -/
theorem option_skipped {o : Option α} (h : ∀ a ∈ o, decode (encode a) = some a)
    (hnull : ∀ a, encode a ≠ .null) :
    (o.map encode).elim (some none) (option decode) = some o := by
  rcases o with - | a
  · rfl
  · exact option_orNull h hnull

end Values

/-! ### Structs -/

section Structs

variable {fields : List (String × Option Json)}

/-- The member of a name is the one that was written for the field. -/
theorem filter_members {name : String} (h : (fields.map Prod.fst).Nodup) :
    (fields.filterMap fun f ↦ f.2.map (f.1, ·)).filter (·.1 == name) =
      ((fields.lookup name).join.map (name, ·)).toList := by
  induction fields with
  | nil => rfl
  | cons f fields ih =>
    obtain ⟨n, w⟩ := f
    obtain ⟨hnew, hrest⟩ := List.nodup_cons.1 h
    have htail := ih hrest
    by_cases hname : name = n
    · subst hname
      have hnone : fields.lookup name = none := by
        rw [List.lookup_eq_none_iff]
        rintro ⟨n, v⟩ hp
        refine bne_iff_ne.2 fun heq ↦ hnew ?_
        exact List.mem_map.2 ⟨(n, v), hp, heq.symm⟩
      rw [hnone] at htail
      rw [List.lookup_cons_self]
      rcases w with - | v
      · exact htail
      · show List.filter _ ((name, v) :: _) = [(name, v)]
        rw [List.filter_cons, if_pos (beq_self_eq_true name), htail]
        rfl
    · have hlookup : List.lookup name ((n, w) :: fields) = fields.lookup name := by
        rw [List.lookup_cons, beq_false_of_ne hname]
      rw [hlookup, ← htail]
      rcases w with - | v
      · rfl
      · exact List.filter_cons_of_neg fun heq ↦ hname (beq_iff_eq.1 heq).symm

/-- A field is read from the member it was written as, and is missing where it was left out. -/
theorem structField_record {i : ℕ} {name : String} {missing short : Option α}
    {decode : Json → Option α} (h : (fields.map Prod.fst).Nodup) :
    structField (.record fields) i name missing short decode =
      (fields.lookup name).join.elim missing decode := by
  rw [Json.record, structField, filter_members h]
  rcases (fields.lookup name).join with - | v
  · rfl
  · rfl

/-- A field with a default, as a member. -/
theorem field_record {name : String} {default : α} {decode : Json → Option α}
    (h : (fields.map Prod.fst).Nodup) :
    field (fields.filterMap fun f ↦ f.2.map (f.1, ·)) name default decode =
      (fields.lookup name).join.elim (some default) decode := by
  rw [field, filter_members h]
  rcases (fields.lookup name).join with - | v
  · rfl
  · rfl

end Structs

/-! ### Maps -/

/-- The members a map may be written as: those of its entries, in some order. -/
def WrittenMembers (writes : α → Json → Prop) (m : KeyMap String α)
    (members : List (String × Json)) : Prop :=
  ∃ entries, m.IteratedAs entries ∧
    List.Forall₂ (fun e member ↦ member.1 = e.1 ∧ writes e.2 member.2) entries members

/-- A map reads back, in whichever order it was written. -/
theorem map_written {writes : α → Json → Prop} {decode : Json → Option α} {m : KeyMap String α}
    {members : List (String × Json)} (h : WrittenMembers writes m members)
    (hread : ∀ name a v, m.get name = some a → writes a v → decode v = some a) :
    map decode (.object members) = some m := by
  obtain ⟨entries, hentries, hwritten⟩ := h
  have hmapM : (members.mapM fun p ↦ (decode p.2).map fun a ↦ (p.1, a)) = some entries := by
    have hget : ∀ e ∈ entries, m.get e.1 = some e.2 := fun e he ↦ (hentries.get_iff _ _).2 he
    clear hentries
    induction hwritten with
    | nil => rfl
    | cons hmember _ ih =>
      obtain ⟨hhead, hrest⟩ := List.forall_mem_cons.1 hget
      rw [List.mapM_cons, hread _ _ _ hhead hmember.2, ih hrest, hmember.1]
      rfl
  show Option.map _ _ = _
  rw [hmapM]
  refine congrArg some (KeyMap.ext fun k ↦ ?_)
  by_cases hk : k ∈ entries.map Prod.fst
  · obtain ⟨a, hmem, hget⟩ := KeyMap.get_insertAll_of_mem (m := KeyMap.empty) hk
    rw [hget, (hentries.get_iff k a).2 hmem]
  · rw [KeyMap.get_insertAll_of_notMem hk, KeyMap.get_empty, eq_comm,
      Option.eq_none_iff_forall_ne_some]
    intro a ha
    exact hk (List.mem_map.2 ⟨(k, a), (hentries.get_iff k a).1 ha, rfl⟩)

/-- A map that is iterated can be written when its values can. -/
theorem exists_writtenMembers {writes : α → Json → Prop} {m : KeyMap String α}
    {entries : List (String × α)} (h : m.IteratedAs entries)
    (hwrites : ∀ name a, m.get name = some a → ∃ v, writes a v) :
    ∃ members, WrittenMembers writes m members := by
  have hall : ∀ e ∈ entries, ∃ v, writes e.2 v := fun e he ↦
    hwrites e.1 e.2 ((h.get_iff _ _).2 he)
  suffices hmembers : ∃ members, List.Forall₂ (fun (e : String × α) (member : String × Json) ↦
      member.1 = e.1 ∧ writes e.2 member.2) entries members by
    obtain ⟨members, hmembers⟩ := hmembers
    exact ⟨members, entries, h, hmembers⟩
  clear h
  induction entries with
  | nil => exact ⟨[], .nil⟩
  | cons e entries ih =>
    obtain ⟨⟨v, hv⟩, hrest⟩ := List.forall_mem_cons.1 hall
    obtain ⟨members, hmembers⟩ := ih hrest
    exact ⟨(e.1, v) :: members, .cons ⟨rfl, hv⟩ hmembers⟩

/-! ### What can be read -/

/-- Whatever is read has the property. -/
def Yields (decode : Json → Option α) (P : α → Prop) : Prop := ∀ v a, decode v = some a → P a

section Yields

variable {decode : Json → Option α} {P : α → Prop}

theorem yields_unsigned (size : ℕ) : Yields (unsigned size) (· < size) := by
  intro v n h
  rw [unsigned.eq_def] at h
  split at h
  · next m =>
    obtain ⟨hlt, heq⟩ := Option.ite_none_right_eq_some.1 h
    rwa [← Option.some.inj heq]
  · cases h

theorem Yields.option (h : Yields decode P) : Yields (option decode) fun o ↦ ∀ a ∈ o, P a := by
  intro v o ho a ha
  by_cases hv : v = .null
  · rw [hv] at ho
    obtain rfl := Option.some.inj ho
    cases ha
  · rw [option_of_ne_null hv] at ho
    obtain ⟨a', ha', rfl⟩ := Option.map_eq_some_iff.1 ho
    obtain rfl := Option.some.inj ha
    exact h v a' ha'

theorem Yields.array (h : Yields decode P) : Yields (array decode) fun l ↦ ∀ a ∈ l, P a := by
  intro v l hl
  rw [Serde.array.eq_def] at hl
  split at hl
  · next items =>
    induction items generalizing l with
    | nil =>
      obtain rfl := Option.some.inj hl
      exact fun a ha ↦ absurd ha List.not_mem_nil
    | cons w items ih =>
      rw [List.mapM_cons, Option.bind_eq_bind, Option.bind_eq_some_iff] at hl
      obtain ⟨a, ha, hl⟩ := hl
      rw [Option.bind_eq_bind, Option.bind_eq_some_iff] at hl
      obtain ⟨rest, hrest, hl⟩ := hl
      obtain rfl := Option.some.inj hl
      exact List.forall_mem_cons.2 ⟨h w a ha, ih _ hrest⟩
  · cases hl

/-- A map is read entry by entry. -/
theorem Yields.map (h : Yields decode P) : Yields (map decode) fun m ↦
    (∃ entries, m.IteratedAs entries) ∧ ∀ name a, m.get name = some a → P a := by
  intro v m hm
  rw [Serde.map.eq_def] at hm
  split at hm
  · next members =>
    obtain ⟨entries, hentries, rfl⟩ := Option.map_eq_some_iff.1 hm
    refine ⟨KeyMap.iteratedAs_empty.insertAll entries, fun name a hget ↦ ?_⟩
    have hmem : (name, a) ∈ entries := by
      by_cases hname : name ∈ entries.map Prod.fst
      · obtain ⟨a', hmem, hget'⟩ := KeyMap.get_insertAll_of_mem (m := KeyMap.empty) hname
        rwa [Option.some.inj (hget.symm.trans hget')]
      · rw [KeyMap.get_insertAll_of_notMem hname] at hget
        cases hget
    clear hget hm
    induction members generalizing entries with
    | nil =>
      obtain rfl := Option.some.inj hentries
      cases hmem
    | cons p members ih =>
      rw [List.mapM_cons, Option.bind_eq_bind, Option.bind_eq_some_iff] at hentries
      obtain ⟨e, he, hentries⟩ := hentries
      rw [Option.bind_eq_bind, Option.bind_eq_some_iff] at hentries
      obtain ⟨rest, hrest, hentries⟩ := hentries
      obtain rfl := Option.some.inj hentries
      obtain ⟨b, hb, rfl⟩ := Option.map_eq_some_iff.1 he
      rcases List.mem_cons.1 hmem with heq | hlater
      · obtain rfl := congrArg Prod.snd heq
        exact h p.2 _ hb
      · exact ih rest hrest hlater
  · cases hm

/-- A field that is not there is what it is missing as. -/
theorem Yields.structField (h : Yields decode P) {v : Json} {i : ℕ} {name : String}
    {missing short : Option α} {a : α} (hmissing : ∀ a ∈ missing, P a) (hshort : ∀ a ∈ short, P a)
    (ha : structField v i name missing short decode = some a) : P a := by
  rw [Serde.structField.eq_def] at ha
  split at ha
  · split at ha
    · exact hmissing a ha
    · exact h _ a ha
    · cases ha
  · next items =>
    rcases hi : items[i]? with - | w
    · rw [hi] at ha
      exact hshort a ha
    · rw [hi] at ha
      exact h w a ha
  · cases ha

theorem Yields.required (h : Yields decode P) {v : Json} {i : ℕ} {name : String} {a : α}
    (ha : Serde.structField v i name none none decode = some a) : P a :=
  h.structField (fun _ hnone ↦ by cases hnone) (fun _ hnone ↦ by cases hnone) ha

theorem Yields.optional {Q : Option α → Prop} {decode : Json → Option (Option α)}
    (h : Yields decode Q) (hnone : Q none) {v : Json} {i : ℕ} {name : String} {o : Option α}
    (ho : Serde.structField v i name (some none) none decode = some o) : Q o :=
  h.structField (fun _ heq ↦ Option.some.inj heq ▸ hnone) (fun _ heq ↦ by cases heq) ho

theorem Yields.field (h : Yields decode P) {v : Json} {i : ℕ} {name : String} {default a : α}
    (hdefault : P default)
    (ha : Serde.structField v i name (some default) (some default) decode = some a) : P a :=
  h.structField (fun _ heq ↦ Option.some.inj heq ▸ hdefault)
    (fun _ heq ↦ Option.some.inj heq ▸ hdefault) ha

theorem Yields.element (h : Yields decode P) {items : List Json} {i : ℕ} {default a : α}
    (hdefault : P default) (ha : element items i default decode = some a) : P a :=
  h.field hdefault
    (show Serde.structField (.array items) i "" (some default) (some default) decode = some a from ha)

theorem Yields.member (h : Yields decode P) {members : List (String × Json)} {name : String}
    {default a : α} (hdefault : P default) (ha : Serde.field members name default decode = some a) :
    P a :=
  h.field hdefault
    (show Serde.structField (.object members) 0 name (some default) (some default) decode = some a
      from ha)

end Yields

end Serde

end Himadri
