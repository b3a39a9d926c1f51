import Himadri.Admin.ModelTables
import Himadri.Transition.System
import Mathlib.Data.List.Nodup

/-!
# Deleting a model while others write

`delete`, `toggle` and `update` of a model and `create` of an endpoint, one statement at a time, in
either database; any statement may fail. A delete reads the model, refuses where it is enabled, and
then deletes: in Postgres the model, with its endpoints by the foreign key; in SQLite the endpoints,
and the model in a statement of its own. Deletes of one model do not overlap.

A delete is to remove the model with its endpoints or nothing, never an enabled model, and no
endpoint is to be left without its model (`DeletesWhole`). It is so in every run in which nothing
enables a model that is being deleted and, in SQLite, the second `DELETE` does not fail after the
first and no endpoint is inserted after it (`deletes_whole`).
-/

namespace Himadri

/-! ### The statements of a delete -/

namespace ModelTables

variable (dialect : SqlDialect) (t : ModelTables) (key : String)

/-- `DELETE FROM model_endpoints WHERE model_id = …`. -/
def deleteEndpoints : ModelTables :=
  { t with endpoints := t.endpoints.filter (·.modelId != key) }

/-- `DELETE FROM models WHERE id = …`, with what the foreign key deletes. -/
def deleteModel : ModelTables :=
  let t' : ModelTables := { t with models := t.models.filter (·.id != key) }
  match dialect with
  | .postgres => t'.deleteEndpoints key
  | .sqlite => t'

end ModelTables

/-- The statement that a delete comes to next. -/
inductive DeleteStatement
  | endpoints
  | model
  deriving DecidableEq

/-- A delete that has found its model disabled, and whether it has removed anything so far. -/
structure PendingDelete where
  key : String
  next : DeleteStatement
  removed : Bool

/-- What a delete has returned, and whether it had removed anything. -/
structure DeleteAnswer where
  key : String
  answer : Except AdminError Bool
  removed : Bool

/-- An update of a model that has read its row. -/
structure PendingModelUpdate where
  key : String
  request : UpdateModelRequest
  current : StoredModel

/-- The tables, the calls under way, what deletes have returned, and the models as they were when
they were removed. -/
structure ModelRun where
  tables : ModelTables
  deletes : List PendingDelete
  updates : List PendingModelUpdate
  creates : List ModelEndpoint
  answers : List DeleteAnswer
  removals : List StoredModel

/-- One statement, which may fail: the first of a call, or the next of the `j`-th of its kind that
is under way. -/
inductive ModelStatement
  | deleteSelect (id : String) (fails : Bool)
  | deleteNext (j : ℕ) (fails : Bool)
  | toggle (id : String) (enabled fails : Bool)
  | updateSelect (id : String) (request : UpdateModelRequest) (fails : Bool)
  | updateWrite (j : ℕ) (fails : Bool)
  /-- `create` looks for the model; the row is the one it is to insert. -/
  | createSelect (modelId : String) (row : ModelEndpoint) (fails : Bool)
  | createInsert (j : ℕ) (fails : Bool)

/-- A delete of an enabled model is refused. -/
def deleteConflict (model : StoredModel) : AdminError :=
  .conflict ("Cannot delete model '" ++ model.name ++ "' (id: " ++ model.id ++
    "): model is enabled. Disable it first before deletion.")

namespace ModelRun

variable (db : ModelStore) (s : ModelRun)

/-- A delete returns. -/
def answer (key : String) (answer : Except AdminError Bool) (removed : Bool) : ModelRun :=
  { s with answers := s.answers ++ [⟨key, answer, removed⟩] }

/-- The tables after a statement that may go wrong; what went wrong changes nothing. -/
def settle (fails : Bool) (result : Except AdminError ModelTables) : ModelRun :=
  match fails, result with
  | false, .ok t' => { s with tables := t' }
  | _, _ => s

/-- The first `DELETE` of a delete. -/
def firstDelete : DeleteStatement :=
  match db.dialect with
  | .postgres => .model
  | .sqlite => .endpoints

/-- The state after a statement. -/
def step? : ModelStatement → Option ModelRun
  | .deleteSelect id fails =>
    match db.rowKey id with
    | none => some (s.answer id (.ok false) false)
    | some key =>
      if s.deletes.any (·.key == key) then none
      else if fails then some (s.answer key (.error .store) false)
      else
        match s.tables.model key with
        | none => some (s.answer key (.ok false) false)
        | some model =>
          if model.enabled then some (s.answer key (.error (deleteConflict model)) false)
          else some { s with deletes := s.deletes ++ [⟨key, firstDelete db, false⟩] }
  | .deleteNext j fails =>
    s.deletes[j]?.map fun d ↦
      if fails then
        { s with deletes := s.deletes.eraseIdx j }.answer d.key (.error .store) d.removed
      else
        match d.next with
        | .endpoints =>
          let removed := s.tables.endpoints.any (·.modelId == d.key)
          { s with
            tables := s.tables.deleteEndpoints d.key
            deletes := s.deletes.set j { d with next := .model, removed } }
        | .model =>
          let removed := s.tables.models.filter (·.id == d.key)
          { s with
            tables := s.tables.deleteModel db.dialect d.key
            deletes := s.deletes.eraseIdx j
            removals := s.removals ++ removed }.answer d.key (.ok !removed.isEmpty)
              (d.removed || !removed.isEmpty)
  | .toggle id enabled fails =>
    match db.rowKey id with
    | none => some s
    | some key => some (s.settle fails (s.tables.updateModel db.dialect key ({ · with enabled })))
  | .updateSelect id request fails =>
    match fails, db.rowKey id, db.get s.tables id with
    | false, some key, some current =>
      some { s with updates := s.updates ++ [⟨key, request, current⟩] }
    | _, _, _ => some s
  | .updateWrite j fails =>
    s.updates[j]?.map fun u ↦
      { s with updates := s.updates.eraseIdx j }.settle fails
        (s.tables.updateModel db.dialect u.key (StoredModel.writeBack u.request u.current))
  | .createSelect modelId row fails =>
    match fails, db.rowKey modelId, db.get s.tables modelId with
    | false, some key, some _ =>
      some { s with creates := s.creates ++ [{ row with modelId := key }] }
    | _, _, _ => some s
  | .createInsert j fails =>
    s.creates[j]?.map fun row ↦
      { s with creates := s.creates.eraseIdx j }.settle fails
        (s.tables.insertEndpoint db.dialect row)

/-- Nothing is under way; the ids of models are unique, and every endpoint has its model. -/
def Start : Prop :=
  s.deletes = [] ∧ s.updates = [] ∧ s.creates = [] ∧ s.answers = [] ∧ s.removals = [] ∧
    (s.tables.models.map (·.id)).Nodup ∧
    ∀ e ∈ s.tables.endpoints, ∃ m ∈ s.tables.models, m.id = e.modelId

/-- The runs. -/
def runs : TransitionSystem ModelRun ModelStatement := .ofPartial Start (step? db)

/-- Deletes are all or nothing, and remove no enabled model. -/
structure DeletesWhole : Prop where
  /-- A delete that was refused or failed, or that found nothing, has removed nothing. -/
  refused : ∀ a ∈ s.answers, a.answer.toOption ≠ some true → a.removed = false
  /-- A delete that was done has removed the model and its endpoints. -/
  done : ∀ a ∈ s.answers, a.answer.toOption = some true →
    (∀ m ∈ s.tables.models, m.id ≠ a.key) ∧ ∀ e ∈ s.tables.endpoints, e.modelId ≠ a.key
  disabled : ∀ m ∈ s.removals, m.enabled = false
  /-- Once nothing is under way, every endpoint has its model. -/
  anchored : s.deletes = [] → s.updates = [] → s.creates = [] →
    ∀ e ∈ s.tables.endpoints, ∃ m ∈ s.tables.models, m.id = e.modelId

/-- Nothing enables a model that is being deleted. In SQLite, a delete that has removed endpoints
does not fail, and no endpoint is inserted whose model is gone or has had its endpoints removed. -/
def Calm : ModelStatement → Prop
  | .toggle id enabled fails =>
    fails = false → enabled = true → ∀ d ∈ s.deletes, db.rowKey id ≠ some d.key
  | .updateWrite j fails => fails = false → ∀ u ∈ s.updates[j]?,
    u.request.enabled.getD u.current.enabled = true → ∀ d ∈ s.deletes, u.key ≠ d.key
  | .deleteNext j fails => fails = true → ∀ d ∈ s.deletes[j]?, d.removed = false
  | .createInsert j fails => fails = false → db.dialect = .sqlite → ∀ row ∈ s.creates[j]?,
    (s.tables.model row.modelId).isSome ∧ ∀ d ∈ s.deletes, d.key = row.modelId → d.next = .endpoints
  | .deleteSelect _ _ | .updateSelect _ _ _ | .createSelect _ _ _ => True

end ModelRun

/-! ### What calm runs keep -/

/-- The table has the model. -/
def ModelTables.HasModel (t : ModelTables) (key : String) : Prop := ∃ m ∈ t.models, m.id = key

/-- Deletes under way have a model to delete, which is disabled, and in SQLite no endpoints once
those are removed; those that have returned have done what they say; endpoints have their models. -/
structure Whole (dialect : SqlDialect) (t : ModelTables) (deletes : List PendingDelete)
    (answers : List DeleteAnswer) (removals : List StoredModel) : Prop where
  ids : (t.models.map (·.id)).Nodup
  keys : (deletes.map (·.key)).Nodup
  present : ∀ d ∈ deletes, t.HasModel d.key
  disabled : ∀ d ∈ deletes, ∀ m ∈ t.models, m.id = d.key → m.enabled = false
  emptied : dialect = .sqlite → ∀ d ∈ deletes, d.next = .model →
    ∀ e ∈ t.endpoints, e.modelId ≠ d.key
  anchored : ∀ e ∈ t.endpoints, t.HasModel e.modelId
  refused : ∀ a ∈ answers, a.answer.toOption ≠ some true → a.removed = false
  done : ∀ a ∈ answers, a.answer.toOption = some true →
    ¬t.HasModel a.key ∧ ∀ e ∈ t.endpoints, e.modelId ≠ a.key
  off : ∀ m ∈ removals, m.enabled = false

theorem ModelTables.model_eq_some {t : ModelTables} {key : String} {m : StoredModel}
    (h : t.model key = some m) : m ∈ t.models ∧ m.id = key := by
  rw [model] at h
  have hkey : (m.id == key) = true := List.find?_some (p := fun m : StoredModel ↦ m.id == key) h
  exact ⟨List.mem_of_find?_eq_some h, beq_iff_eq.1 hkey⟩

namespace Whole

variable {dialect : SqlDialect} {t t' : ModelTables} {deletes : List PendingDelete}
  {answers : List DeleteAnswer} {removals : List StoredModel} {key : String}
  (h : Whole dialect t deletes answers removals)
include h

/-- A statement that changes models and keeps their ids. -/
theorem updateModel {f : StoredModel → StoredModel} (hid : ∀ m, (f m).id = m.id)
    (hoff : ∀ d ∈ deletes, d.key = key → ∀ m, (f m).enabled = false)
    (hupdate : t.updateModel dialect key f = .ok t') :
    Whole dialect t' deletes answers removals := by
  obtain rfl := ModelTables.updateModel_ok hupdate
  have hids (m : StoredModel) : (if m.id == key then f m else m).id = m.id := by
    split
    · exact hid m
    · rfl
  have hhas (k : String) : ModelTables.HasModel
      { t with models := t.models.map fun m ↦ if m.id == key then f m else m } k ↔
        t.HasModel k := by
    constructor
    · rintro ⟨m', hm', hk⟩
      obtain ⟨m, hm, rfl⟩ := List.mem_map.1 hm'
      exact ⟨m, hm, (hids m).symm.trans hk⟩
    · rintro ⟨m, hm, hk⟩
      exact ⟨_, List.mem_map_of_mem hm, (hids m).trans hk⟩
  refine ⟨?_, h.keys, fun d hd ↦ (hhas _).2 (h.present d hd), fun d hd m' hm' hk ↦ ?_, h.emptied,
    fun e he ↦ (hhas _).2 (h.anchored e he), h.refused, fun a ha hdone ↦ ?_, h.off⟩
  · rw [List.map_map]
    exact (congrArg List.Nodup (List.map_congr_left fun m _ ↦ hids m)).mpr h.ids
  · obtain ⟨m, hm, rfl⟩ := List.mem_map.1 hm'
    rw [hids] at hk
    split
    · next hkey => exact hoff d hd (hk.symm.trans (beq_iff_eq.1 hkey)) m
    · exact h.disabled d hd m hm hk
  · exact ⟨fun hthere ↦ (h.done a ha hdone).1 ((hhas _).1 hthere), (h.done a ha hdone).2⟩

/-- An endpoint is inserted. -/
theorem insertEndpoint {row : ModelEndpoint} (hmodel : t.HasModel row.modelId)
    (hcalm : dialect = .sqlite → ∀ d ∈ deletes, d.key = row.modelId → d.next = .endpoints)
    (hinsert : t.insertEndpoint dialect row = .ok t') :
    Whole dialect t' deletes answers removals := by
  obtain ⟨rfl, -⟩ := ModelTables.insertEndpoint_ok hinsert
  refine ⟨h.ids, h.keys, h.present, h.disabled, fun hdialect d hd hnext e he ↦ ?_, fun e he ↦ ?_,
    h.refused, fun a ha hdone ↦ ⟨(h.done a ha hdone).1, fun e he ↦ ?_⟩, h.off⟩
  · rcases List.mem_append.1 he with he | he
    · exact h.emptied hdialect d hd hnext e he
    · obtain rfl := List.mem_singleton.1 he
      intro heq
      have hfirst := hcalm hdialect d hd heq.symm
      rw [hnext] at hfirst
      cases hfirst
  · rcases List.mem_append.1 he with he | he
    · exact h.anchored e he
    · obtain rfl := List.mem_singleton.1 he
      exact hmodel
  · rcases List.mem_append.1 he with he | he
    · exact (h.done a ha hdone).2 e he
    · obtain rfl := List.mem_singleton.1 he
      intro heq
      exact (h.done a ha hdone).1 (heq ▸ hmodel)

/-- A delete returns without having removed anything. -/
theorem answer (key : String) {answer : Except AdminError Bool}
    (hanswer : answer.toOption ≠ some true) :
    Whole dialect t deletes (answers ++ [⟨key, answer, false⟩]) removals := by
  refine { h with refused := fun a ha hne ↦ ?_, done := fun a ha hdone ↦ ?_ }
  · rcases List.mem_append.1 ha with ha | ha
    · exact h.refused a ha hne
    · obtain rfl := List.mem_singleton.1 ha
      rfl
  · rcases List.mem_append.1 ha with ha | ha
    · exact h.done a ha hdone
    · obtain rfl := List.mem_singleton.1 ha
      exact absurd hdone hanswer

/-- A delete has found its model disabled. -/
theorem start {model : StoredModel} (hmodel : t.model key = some model)
    (hoff : model.enabled = false) {next : DeleteStatement}
    (hnext : dialect = .sqlite → next = .endpoints) (hnew : ∀ d ∈ deletes, d.key ≠ key) :
    Whole dialect t (deletes ++ [⟨key, next, false⟩]) answers removals := by
  obtain ⟨hmem, hid⟩ := ModelTables.model_eq_some hmodel
  refine { h with keys := ?_, present := ?_, disabled := ?_, emptied := ?_ }
  · rw [List.map_append, List.map_singleton]
    refine List.Nodup.append h.keys (List.nodup_singleton _) fun k hk hk' ↦ ?_
    obtain ⟨d, hd, rfl⟩ := List.mem_map.1 hk
    exact hnew d hd (List.mem_singleton.1 hk')
  · intro d hd
    rcases List.mem_append.1 hd with hd | hd
    · exact h.present d hd
    · obtain rfl := List.mem_singleton.1 hd
      exact ⟨model, hmem, hid⟩
  · intro d hd m hm hk
    rcases List.mem_append.1 hd with hd | hd
    · exact h.disabled d hd m hm hk
    · obtain rfl := List.mem_singleton.1 hd
      have heq : m = model := List.inj_on_of_nodup_map h.ids hm hmem (hk.trans hid.symm)
      rw [heq]
      exact hoff
  · intro hdialect d hd hdnext
    rcases List.mem_append.1 hd with hd | hd
    · exact h.emptied hdialect d hd hdnext
    · obtain rfl := List.mem_singleton.1 hd
      rw [show next = .model from hdnext] at hnext
      cases hnext hdialect

/-- A delete is no longer under way. -/
theorem erase (j : ℕ) : Whole dialect t (deletes.eraseIdx j) answers removals :=
  { h with
    keys := h.keys.sublist ((List.eraseIdx_sublist deletes j).map _)
    present := fun d hd ↦ h.present d (List.mem_of_mem_eraseIdx hd)
    disabled := fun d hd ↦ h.disabled d (List.mem_of_mem_eraseIdx hd)
    emptied := fun hdialect d hd ↦ h.emptied hdialect d (List.mem_of_mem_eraseIdx hd) }

/-- In SQLite, a delete removes the endpoints. -/
theorem deleteEndpoints {j : ℕ} {d : PendingDelete} (hd : deletes[j]? = some d) (removed : Bool) :
    Whole dialect (t.deleteEndpoints d.key) (deletes.set j { d with next := .model, removed })
      answers removals := by
  obtain ⟨hj, hjd⟩ := List.getElem?_eq_some_iff.1 hd
  have hkeys : (deletes.set j { d with next := .model, removed }).map (·.key) =
      deletes.map (·.key) := by
    rw [List.map_set, ← hjd, ← List.getElem_map (fun d : PendingDelete ↦ d.key),
      List.set_getElem_self]
    rwa [List.length_map]
  -- each delete under way is, but for its next statement, one that was
  have hwas : ∀ d' ∈ deletes.set j { d with next := .model, removed }, ∃ d₀ ∈ deletes,
      d₀.key = d'.key ∧ (d'.next = .model → d₀.next = .model ∨ d'.key = d.key) := by
    intro d' hd'
    rcases List.mem_or_eq_of_mem_set hd' with hold | rfl
    · exact ⟨d', hold, rfl, .inl⟩
    · exact ⟨d, List.mem_of_getElem? hd, rfl, fun _ ↦ .inr rfl⟩
  refine ⟨h.ids, hkeys ▸ h.keys, fun d' hd' ↦ ?_, fun d' hd' m hm hk ↦ ?_,
    fun hdialect d' hd' hnext e he ↦ ?_, fun e he ↦ h.anchored e (List.mem_of_mem_filter he),
    h.refused, fun a ha hdone ↦ ⟨(h.done a ha hdone).1, fun e he ↦
      (h.done a ha hdone).2 e (List.mem_of_mem_filter he)⟩, h.off⟩
  · obtain ⟨d₀, hd₀, hkey, -⟩ := hwas d' hd'
    rw [← hkey]
    exact h.present d₀ hd₀
  · obtain ⟨d₀, hd₀, hkey, -⟩ := hwas d' hd'
    exact h.disabled d₀ hd₀ m hm (hk.trans hkey.symm)
  · obtain ⟨d₀, hd₀, hkey, hwasNext⟩ := hwas d' hd'
    obtain ⟨he, hne⟩ := List.mem_filter.1 he
    rcases hwasNext hnext with hmodel | hself
    · rw [← hkey]
      exact h.emptied hdialect d₀ hd₀ hmodel e he
    · rw [hself]
      exact bne_iff_ne.1 hne

/-- A delete removes the model, and returns. -/
theorem deleteModel {j : ℕ} {d : PendingDelete} (hd : deletes[j]? = some d)
    (hnext : d.next = .model) :
    Whole dialect (t.deleteModel dialect d.key) (deletes.eraseIdx j)
      (answers ++ [⟨d.key, .ok !(t.models.filter (·.id == d.key)).isEmpty,
        d.removed || !(t.models.filter (·.id == d.key)).isEmpty⟩])
      (removals ++ t.models.filter (·.id == d.key)) := by
  have hmem : d ∈ deletes := List.mem_of_getElem? hd
  obtain ⟨m₀, hm₀, hid₀⟩ := h.present d hmem
  have hfound : (t.models.filter (·.id == d.key)).isEmpty = false := by
    rw [List.isEmpty_eq_false_iff]
    exact List.ne_nil_of_mem (List.mem_filter.2 ⟨hm₀, beq_iff_eq.2 hid₀⟩)
  have hmodels : (t.deleteModel dialect d.key).models = t.models.filter (·.id != d.key) := by
    cases dialect <;> rfl
  -- the endpoints that are left are old ones, of other models
  have hleft : ∀ e ∈ (t.deleteModel dialect d.key).endpoints,
      e ∈ t.endpoints ∧ e.modelId ≠ d.key := by
    intro e he
    cases dialect with
    | postgres =>
      obtain ⟨he, hne⟩ := List.mem_filter.1 he
      exact ⟨he, bne_iff_ne.1 hne⟩
    | sqlite => exact ⟨he, h.emptied rfl d hmem hnext e he⟩
  have hstays {k : String} (hne : k ≠ d.key) (hhas : t.HasModel k) :
      (t.deleteModel dialect d.key).HasModel k := by
    obtain ⟨m, hm, rfl⟩ := hhas
    refine ⟨m, ?_, rfl⟩
    rw [hmodels]
    exact List.mem_filter.2 ⟨hm, bne_iff_ne.2 hne⟩
  have hother : ∀ d' ∈ deletes.eraseIdx j, d'.key ≠ d.key := by
    intro d' hd' heq
    obtain ⟨i, hne, hi⟩ := List.mem_eraseIdx_iff_getElem?.1 hd'
    have hlt : i < (deletes.map (·.key)).length := by
      rw [List.length_map]
      exact (List.getElem?_eq_some_iff.1 hi).1
    refine hne ((List.getElem?_inj hlt h.keys).1 ?_)
    rw [List.getElem?_map, List.getElem?_map, hi, hd, Option.map_some, Option.map_some, heq]
  rw [hfound]
  refine ⟨?_, h.keys.sublist ((List.eraseIdx_sublist deletes j).map _), fun d' hd' ↦ ?_,
    fun d' hd' m hm hk ↦ ?_, fun hdialect d' hd' hd'next e he ↦ ?_, fun e he ↦ ?_,
    fun a ha hne ↦ ?_, fun a ha hdone ↦ ?_, fun m hm ↦ ?_⟩
  · rw [hmodels]
    exact h.ids.sublist (List.filter_sublist.map _)
  · exact hstays (hother d' hd') (h.present d' (List.mem_of_mem_eraseIdx hd'))
  · rw [hmodels] at hm
    exact h.disabled d' (List.mem_of_mem_eraseIdx hd') m (List.mem_of_mem_filter hm) hk
  · exact h.emptied hdialect d' (List.mem_of_mem_eraseIdx hd') hd'next e (hleft e he).1
  · exact hstays (hleft e he).2 (h.anchored e (hleft e he).1)
  · rcases List.mem_append.1 ha with ha | ha
    · exact h.refused a ha hne
    · obtain rfl := List.mem_singleton.1 ha
      exact absurd rfl hne
  · rcases List.mem_append.1 ha with ha | ha
    · refine ⟨?_, fun e he ↦ (h.done a ha hdone).2 e (hleft e he).1⟩
      rintro ⟨m, hm, hk⟩
      rw [hmodels] at hm
      exact (h.done a ha hdone).1 ⟨m, List.mem_of_mem_filter hm, hk⟩
    · obtain rfl := List.mem_singleton.1 ha
      refine ⟨?_, fun e he ↦ (hleft e he).2⟩
      rintro ⟨m, hm, hk⟩
      rw [hmodels] at hm
      exact bne_iff_ne.1 (List.mem_filter.1 hm).2 hk
  · rcases List.mem_append.1 hm with hm | hm
    · exact h.off m hm
    · obtain ⟨hm, hk⟩ := List.mem_filter.1 hm
      exact h.disabled d hmem m hm (beq_iff_eq.1 hk)

end Whole

namespace ModelRun

variable {db : ModelStore} {s s' : ModelRun}

/-- What the state keeps. -/
def Sound (db : ModelStore) (s : ModelRun) : Prop :=
  Whole db.dialect s.tables s.deletes s.answers s.removals

/-- A statement on the tables, which may have gone wrong. -/
theorem Sound.settle (h : s.Sound db) {fails : Bool} {result : Except AdminError ModelTables}
    (hok : ∀ t', fails = false → result = .ok t' →
      Whole db.dialect t' s.deletes s.answers s.removals) : (s.settle fails result).Sound db := by
  rcases fails with - | -
  · rcases result with e | t'
    · exact h
    · exact hok t' rfl rfl
  · exact h

/-- The first statement of a delete. -/
theorem Sound.deleteSelect (h : s.Sound db) {id : String} {fails : Bool}
    (hstep : s.step? db (.deleteSelect id fails) = some s') : s'.Sound db := by
  simp only [step?] at hstep
  split at hstep
  · cases hstep
    exact Whole.answer h id (by rintro ⟨⟩)
  · next key hkey =>
    split at hstep
    · cases hstep
    · next hnone =>
      split at hstep
      · cases hstep
        exact Whole.answer h key (by rintro ⟨⟩)
      · split at hstep
        · cases hstep
          exact Whole.answer h key (by rintro ⟨⟩)
        · next model hmodel =>
          split at hstep
          · cases hstep
            exact Whole.answer h key (by rintro ⟨⟩)
          · next hoff =>
            cases hstep
            refine Whole.start h hmodel (Bool.eq_false_iff.2 hoff) (fun hdialect ↦ ?_) ?_
            · rw [firstDelete, hdialect]
            · intro d hd heq
              exact hnone (List.any_eq_true.2 ⟨d, hd, beq_iff_eq.2 heq⟩)

/-- The further statements of a delete. -/
theorem Sound.deleteNext (h : s.Sound db) {j : ℕ} {fails : Bool}
    (hcalm : s.Calm db (.deleteNext j fails))
    (hstep : s.step? db (.deleteNext j fails) = some s') : s'.Sound db := by
  obtain ⟨d, hd, rfl⟩ := Option.map_eq_some_iff.1 hstep
  split
  · next hfails =>
    have hremoved : d.removed = false := hcalm hfails d hd
    rw [hremoved]
    exact Whole.answer (Whole.erase h j) d.key (by rintro ⟨⟩)
  · split
    · exact Whole.deleteEndpoints h hd _
    · next hnext => exact Whole.deleteModel h hd hnext

theorem Sound.toggle (h : s.Sound db) {id : String} {enabled fails : Bool}
    (hcalm : s.Calm db (.toggle id enabled fails))
    (hstep : s.step? db (.toggle id enabled fails) = some s') : s'.Sound db := by
  simp only [step?] at hstep
  split at hstep
  · cases hstep
    exact h
  · next key hkey =>
    cases hstep
    refine h.settle fun t' hok hupdate ↦ Whole.updateModel h ?_ ?_ hupdate
    · exact fun m ↦ rfl
    · intro d hd heq m
      show enabled = false
      rw [Bool.eq_false_iff]
      intro hon
      exact hcalm hok hon d hd (by rw [hkey, heq])

theorem Sound.updateWrite (h : s.Sound db) {j : ℕ} {fails : Bool}
    (hcalm : s.Calm db (.updateWrite j fails))
    (hstep : s.step? db (.updateWrite j fails) = some s') : s'.Sound db := by
  obtain ⟨u, hu, rfl⟩ := Option.map_eq_some_iff.1 hstep
  have hkept : ({ s with updates := s.updates.eraseIdx j } : ModelRun).Sound db := h
  refine hkept.settle fun t' hok hupdate ↦ Whole.updateModel h ?_ ?_ hupdate
  · exact fun m ↦ rfl
  · intro d hd heq m
    show u.request.enabled.getD u.current.enabled = false
    rw [Bool.eq_false_iff]
    intro hon
    exact hcalm hok u hu hon d hd heq.symm

theorem Sound.createInsert (h : s.Sound db) {j : ℕ} {fails : Bool}
    (hcalm : s.Calm db (.createInsert j fails))
    (hstep : s.step? db (.createInsert j fails) = some s') : s'.Sound db := by
  obtain ⟨row, hrow, rfl⟩ := Option.map_eq_some_iff.1 hstep
  have hkept : ({ s with creates := s.creates.eraseIdx j } : ModelRun).Sound db := h
  refine hkept.settle fun t' hok hinsert ↦ ?_
  have hmodel : (s.tables.model row.modelId).isSome := by
    rcases (ModelTables.insertEndpoint_ok hinsert).2.2 with hdialect | hmodel
    · exact (hcalm hok hdialect row hrow).1
    · exact hmodel
  obtain ⟨m, hm⟩ := Option.isSome_iff_exists.1 hmodel
  exact Whole.insertEndpoint h ⟨m, ModelTables.model_eq_some hm⟩
    (fun hdialect ↦ (hcalm hok hdialect row hrow).2) hinsert

/-- **A statement of a calm run.** -/
theorem Sound.step (h : s.Sound db) {op : ModelStatement} (hcalm : s.Calm db op)
    (hstep : s.step? db op = some s') : s'.Sound db := by
  cases op with
  | deleteSelect id fails => exact h.deleteSelect hstep
  | deleteNext j fails => exact h.deleteNext hcalm hstep
  | toggle id enabled fails => exact h.toggle hcalm hstep
  | updateSelect id request fails =>
    simp only [step?] at hstep
    split at hstep <;> cases hstep <;> exact h
  | updateWrite j fails => exact h.updateWrite hcalm hstep
  | createSelect modelId row fails =>
    simp only [step?] at hstep
    split at hstep <;> cases hstep <;> exact h
  | createInsert j fails => exact h.createInsert hcalm hstep

theorem sound_invariant (db : ModelStore) :
    ((runs db).guard fun s op ↦ s.Calm db op).Invariant (Sound db) where
  init s hs := by
    obtain ⟨hdeletes, -, -, hanswers, hremovals, hids, hanchored⟩ := hs
    rw [Sound, hdeletes, hanswers, hremovals]
    exact ⟨hids, List.nodup_nil, fun _ hd ↦ (by cases hd), fun _ hd ↦ (by cases hd),
      fun _ _ hd ↦ (by cases hd), hanchored, fun _ ha ↦ (by cases ha), fun _ ha ↦ (by cases ha),
      fun _ hm ↦ (by cases hm)⟩
  step s op s' h hstep := h.step hstep.2 hstep.1

/-- **In calm runs deletes are all or nothing**, in either database. -/
theorem deletes_whole (db : ModelStore) {s : ModelRun}
    (hs : ((runs db).guard fun s op ↦ s.Calm db op).Reachable s) : s.DeletesWhole where
  refused := ((sound_invariant db).of_reachable hs).refused
  done a ha hdone := by
    obtain ⟨hmodel, hendpoints⟩ := ((sound_invariant db).of_reachable hs).done a ha hdone
    exact ⟨fun m hm heq ↦ hmodel ⟨m, hm, heq⟩, hendpoints⟩
  disabled := ((sound_invariant db).of_reachable hs).off
  anchored _ _ _ := ((sound_invariant db).of_reachable hs).anchored

/-- A disabled model with one endpoint. -/
def oneDisabled : ModelRun where
  tables :=
    ⟨[{ id := "m", name := "gpt-4o", enabled := false, displayName := none }],
      [{ id := "e", modelId := "m", providerType := "openai", baseUrl := none, apiKey := none,
         weight := 1, enabled := true }]⟩
  deletes := []
  updates := []
  creates := []
  answers := []
  removals := []

theorem oneDisabled_start : oneDisabled.Start :=
  ⟨rfl, rfl, rfl, rfl, rfl, by decide, fun e he ↦ ⟨_, List.mem_singleton_self _, by
    rw [List.mem_singleton.1 he]⟩⟩

/-- A SQLite database. -/
def sqliteModels : ModelStore := ⟨.sqlite, some⟩

/-- A Postgres database. -/
def postgresModels : ModelStore := ⟨.postgres, some⟩

theorem deletes_whole_undisturbed : ∃ s : ModelRun,
    s.answers.map (·.answer.toOption) = [some true] ∧ s.DeletesWhole := by
  refine ⟨_, ?_, deletes_whole sqliteModels (.step (l := .deleteNext 0 false)
    (.step (l := .deleteNext 0 false) (.step (l := .deleteSelect "m" false)
      (.init oneDisabled_start) ⟨rfl, trivial⟩) ⟨rfl, fun h ↦ (by cases h)⟩)
      ⟨rfl, fun h ↦ (by cases h)⟩)⟩
  rfl

/-- In SQLite a delete that fails has removed the endpoints, and in either database an enabled model
is removed. -/
theorem deletes_torn :
    (∃ s, (runs sqliteModels).Reachable s ∧ ¬s.DeletesWhole) ∧
      ∃ s, (runs postgresModels).Reachable s ∧ ¬s.DeletesWhole := by
  refine ⟨⟨_, .step (l := .deleteNext 0 true) (.step (l := .deleteNext 0 false)
    (.step (l := .deleteSelect "m" false) (.init oneDisabled_start) rfl) rfl) rfl, fun h ↦ ?_⟩,
    ⟨_, .step (l := .deleteNext 0 false) (.step (l := .toggle "m" true false)
      (.step (l := .deleteSelect "m" false) (.init oneDisabled_start) rfl) rfl) rfl, fun h ↦ ?_⟩⟩
  · cases h.refused _ (List.mem_singleton_self _) (by rintro ⟨⟩)
  · cases h.disabled _ (List.mem_singleton_self _)

end ModelRun

end Himadri
