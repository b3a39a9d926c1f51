import Himadri.Admin.ModelTables
import Himadri.Transition.System

/-!
# The keys of endpoints, over runs of several processes

Processes come and go over one table, each with its own cipher or with none. Beside the tables a run
records, for each endpoint, the plaintext that was stored last and the cipher of the process that
stored it (`EndpointRun.written`).

Every column is that plaintext under that cipher (`Sealed`), so that a read gives the plaintext or
nothing exactly where the reader can tell plaintext from ciphertext (`endpoint_reads`): a process
without a cipher hands out ciphertext, and a plaintext that was stored as it is and begins like
ciphertext is lost to a process with one.
-/

namespace Himadri

/-! ### Operations -/

/-- One call of a store of endpoints, with what it draws. -/
inductive EndpointOp
  | create (uuid modelId : String) (nonce : Nonce) (request : CreateModelEndpointRequest)
  | update (id : String) (nonce : Nonce) (request : UpdateModelEndpointRequest)
  | toggle (id : String) (enabled : Bool)
  | get (id : String)
  | list
  | listByModel (modelId : String)

section Runs

variable {κ : Type} (gcm : Aes256Gcm κ) (db : ModelStore)

/-- The store of a process with the cipher. -/
def ModelStore.endpoints (cipher : Option κ) : ModelEndpointStore κ where
  toModelStore := db
  cipher

/-- The tables after a call, and the endpoints it returns. -/
def ModelEndpointStore.run (store : ModelEndpointStore κ) (t : ModelTables) :
    EndpointOp → Except AdminError (ModelTables × List ModelEndpoint)
  | .create uuid modelId nonce request =>
    (store.create gcm t uuid modelId nonce request).map fun (t', e) ↦ (t', [e])
  | .update id nonce request =>
    (store.update gcm t id nonce request).map fun (t', e) ↦ (t', e.toList)
  | .toggle id enabled => (store.toggle gcm t id enabled).map fun (t', e) ↦ (t', e.toList)
  | .get id => .ok (t, (store.get gcm t id).toList)
  | .list => .ok (t, store.list gcm t)
  | .listByModel modelId => .ok (t, store.listByModel gcm t modelId)

/-- The row whose key a call stores, and the key. -/
def EndpointOp.stores : EndpointOp → Option (String × Option String)
  | .create uuid _ _ request => some (uuid, request.apiKey)
  | .update id _ request => (db.rowKey id).bind fun key ↦ request.apiKey.map (key, ·)
  | .toggle _ _ | .get _ | .list | .listByModel _ => none

/-- The tables, and what was stored last in each row and under which cipher. -/
structure EndpointRun (κ : Type) where
  tables : ModelTables
  written : KeyMap String (Option String × Option κ)

namespace EndpointRun

/-- What a call that went through has stored. -/
def record (s : EndpointRun κ) (cipher : Option κ) (op : EndpointOp) (t' : ModelTables) :
    EndpointRun κ where
  tables := t'
  written :=
    match op.stores db with
    | none => s.written
    | some (key, apiKey) => s.written.insert key (apiKey, cipher)

/-- A call of a process with the cipher; a call that fails changes nothing. -/
def next (s : EndpointRun κ) (cipher : Option κ) (op : EndpointOp) : EndpointRun κ :=
  match (db.endpoints cipher).run gcm s.tables op with
  | .ok (t', _) => s.record db cipher op t'
  | .error _ => s

/-- The runs, from a database without endpoints. -/
def runs : TransitionSystem (EndpointRun κ) (Option κ × EndpointOp) where
  Init s := s.tables.endpoints = [] ∧ s.written = .empty
  Step s l s' := s' = s.next gcm db l.1 l.2

/-- The row's column is what was stored last, under the cipher it was stored with. -/
def Wrote (written : KeyMap String (Option String × Option κ)) (row : ModelEndpoint) : Prop :=
  ∃ stored writer nonce, written.get row.id = some (stored, writer) ∧
    row.apiKey = encryptEndpointApiKey gcm writer nonce stored

/-- Every column is what was stored last. -/
def Sealed (s : EndpointRun κ) : Prop := ∀ row ∈ s.tables.endpoints, Wrote gcm s.written row

end EndpointRun

end Runs

/-! ### What a call leaves of the columns -/

namespace ModelEndpointStore

variable {κ : Type} {gcm : Aes256Gcm κ} {store : ModelEndpointStore κ} {t t' : ModelTables}
  {e : ModelEndpoint}

theorem get_mem {id : String} (h : store.get gcm t id = some e) :
    ∃ row ∈ t.endpoints, e = decryptEndpoint gcm store.cipher row := by
  obtain ⟨row, hrow, rfl⟩ := Option.map_eq_some_iff.1 h
  obtain ⟨key, -, hfind⟩ := Option.bind_eq_some_iff.1 hrow
  exact ⟨row, List.mem_of_find?_eq_some hfind, rfl⟩

/-- `create` adds a row with the key encrypted, and returns the key. -/
theorem create_ok {uuid modelId : String} {nonce : Nonce} {request : CreateModelEndpointRequest}
    (h : store.create gcm t uuid modelId nonce request = .ok (t', e)) :
    e.id = uuid ∧ e.apiKey = request.apiKey ∧ (∀ r ∈ t.endpoints, r.id ≠ uuid) ∧
      ∃ row, row.id = uuid ∧ t'.endpoints = t.endpoints ++ [row] ∧
        row.apiKey = encryptEndpointApiKey gcm store.cipher nonce request.apiKey := by
  rw [create] at h
  split at h
  · cases h
  · split at h
    · cases h
    · obtain ⟨t₁, hinsert, hok⟩ := Except.bind_eq_ok h
      cases hok
      obtain ⟨rfl, hnew, -⟩ := ModelTables.insertEndpoint_ok hinsert
      exact ⟨rfl, rfl, hnew, _, rfl, rfl, rfl⟩

/-- `update` sets the column of the row it finds to the key that the request names, encrypted. -/
theorem update_ok {id : String} {nonce : Nonce} {request : UpdateModelEndpointRequest}
    {found : Option ModelEndpoint} (h : store.update gcm t id nonce request = .ok (t', found)) :
    found = store.get gcm t' id ∧ ∃ key, store.rowKey id = some key ∧
      ∃ f : ModelEndpoint → ModelEndpoint, (∀ row, (f row).id = row.id) ∧
        (∀ row, (f row).apiKey = (request.apiKey.map
          (encryptEndpointApiKey gcm store.cipher nonce)).getD row.apiKey) ∧
        t'.endpoints = t.endpoints.map fun row ↦ if row.id == key then f row else row := by
  rw [update] at h
  split at h
  · next key current hkey hcurrent =>
    obtain ⟨t₁, hupdate, hok⟩ := Except.bind_eq_ok h
    cases hok
    obtain rfl := ModelTables.updateEndpoint_ok hupdate
    refine ⟨rfl, key, hkey, _, fun row ↦ ?_, fun row ↦ ?_, rfl⟩
    · rw [ModelEndpoint.writeBack_eq]
    · rw [ModelEndpoint.writeBack_eq]
      rfl
  · cases h

/-- `toggle` keeps every column. -/
theorem toggle_ok {id : String} {enabled : Bool} {found : Option ModelEndpoint}
    (h : store.toggle gcm t id enabled = .ok (t', found)) :
    (∀ e ∈ found, store.get gcm t' id = some e) ∧
      ∃ f : ModelEndpoint → ModelEndpoint, (∀ row, (f row).id = row.id) ∧
        (∀ row, (f row).apiKey = row.apiKey) ∧ t'.endpoints = t.endpoints.map f := by
  rw [toggle] at h
  split at h
  · cases h
    exact ⟨fun e he ↦ (by cases he), fun row ↦ row, fun _ ↦ rfl, fun _ ↦ rfl,
      (List.map_id' _).symm⟩
  · next key hkey =>
    obtain ⟨t₁, hupdate, hok⟩ := Except.bind_eq_ok h
    cases hok
    obtain rfl := ModelTables.updateEndpoint_ok hupdate
    refine ⟨fun e he ↦ he, _, fun row ↦ ?_, fun row ↦ ?_, rfl⟩
    · split <;> rfl
    · split <;> rfl

end ModelEndpointStore

/-! ### Every column is what was stored last -/

section Columns

variable {κ : Type} {gcm : Aes256Gcm κ} {db : ModelStore} {cipher : Option κ} {t t' : ModelTables}
  {op : EndpointOp} {answers : List ModelEndpoint}

/-- A call that stores no key keeps the columns as they are. -/
theorem run_unnamed (h : (db.endpoints cipher).run gcm t op = .ok (t', answers))
    (hstores : op.stores db = none) :
    ∃ f : ModelEndpoint → ModelEndpoint, (∀ row, (f row).id = row.id) ∧
      (∀ row, (f row).apiKey = row.apiKey) ∧ t'.endpoints = t.endpoints.map f := by
  cases op with
  | create uuid modelId nonce request => cases hstores
  | update id nonce request =>
    obtain ⟨⟨t₁, found⟩, hupdate, heq⟩ := Except.map_eq_ok h
    cases heq
    obtain ⟨-, key, hkey, f, hid, hcolumn, hrows⟩ := ModelEndpointStore.update_ok hupdate
    have hunnamed : request.apiKey = none := by
      rw [EndpointOp.stores, show db.rowKey id = some key from hkey, Option.bind_some,
        Option.map_eq_none_iff] at hstores
      exact hstores
    refine ⟨_, fun row ↦ ?_, fun row ↦ ?_, hrows⟩
    · split
      · exact hid row
      · rfl
    · split
      · rw [hcolumn, hunnamed]
        rfl
      · rfl
  | toggle id enabled =>
    obtain ⟨⟨t₁, found⟩, htoggle, heq⟩ := Except.map_eq_ok h
    cases heq
    exact (ModelEndpointStore.toggle_ok htoggle).2
  | get id =>
    cases h
    exact ⟨fun row ↦ row, fun _ ↦ rfl, fun _ ↦ rfl, (List.map_id' _).symm⟩
  | list =>
    cases h
    exact ⟨fun row ↦ row, fun _ ↦ rfl, fun _ ↦ rfl, (List.map_id' _).symm⟩
  | listByModel modelId =>
    cases h
    exact ⟨fun row ↦ row, fun _ ↦ rfl, fun _ ↦ rfl, (List.map_id' _).symm⟩

/-- A call that stores a key sets the column of its row, and of no other. -/
theorem run_named (h : (db.endpoints cipher).run gcm t op = .ok (t', answers)) {key : String}
    {apiKey : Option String} (hstores : op.stores db = some (key, apiKey)) :
    ∀ row' ∈ t'.endpoints,
      (row'.id = key ∧ ∃ nonce, row'.apiKey = encryptEndpointApiKey gcm cipher nonce apiKey) ∨
        (row'.id ≠ key ∧ row' ∈ t.endpoints) := by
  cases op with
  | create uuid modelId nonce request =>
    obtain ⟨⟨t₁, e⟩, hcreate, heq⟩ := Except.map_eq_ok h
    cases heq
    cases hstores
    obtain ⟨-, -, hnew, row, hid, hrows, hcolumn⟩ := ModelEndpointStore.create_ok hcreate
    intro row' hrow'
    rw [hrows, List.mem_append, List.mem_singleton] at hrow'
    rcases hrow' with hold | rfl
    · exact .inr ⟨hnew row' hold, hold⟩
    · exact .inl ⟨hid, nonce, hcolumn⟩
  | update id nonce request =>
    obtain ⟨⟨t₁, found⟩, hupdate, heq⟩ := Except.map_eq_ok h
    cases heq
    obtain ⟨-, key', hkey, f, hid, hcolumn, hrows⟩ := ModelEndpointStore.update_ok hupdate
    rw [EndpointOp.stores, show db.rowKey id = some key' from hkey, Option.bind_some,
      Option.map_eq_some_iff] at hstores
    obtain ⟨named, hnamed, heq⟩ := hstores
    cases heq
    intro row' hrow'
    rw [hrows, List.mem_map] at hrow'
    obtain ⟨row, hrow, rfl⟩ := hrow'
    split
    · next hsame =>
      rw [hid, hcolumn, hnamed]
      exact .inl ⟨beq_iff_eq.1 hsame, nonce, rfl⟩
    · next hother => exact .inr ⟨fun heq ↦ hother (beq_iff_eq.2 heq), hrow⟩
  | toggle id enabled => cases hstores
  | get id => cases hstores
  | list => cases hstores
  | listByModel modelId => cases hstores

/-- What a call returns it has read, or was given to store. -/
theorem run_answers (h : (db.endpoints cipher).run gcm t op = .ok (t', answers)) :
    ∀ e ∈ answers, (∃ row ∈ t'.endpoints, e = decryptEndpoint gcm cipher row) ∨
      (op.stores db = some (e.id, e.apiKey)) := by
  intro e he
  cases op with
  | create uuid modelId nonce request =>
    obtain ⟨⟨t₁, e'⟩, hcreate, heq⟩ := Except.map_eq_ok h
    cases heq
    obtain rfl := List.mem_singleton.1 he
    obtain ⟨hid, hkey, -⟩ := ModelEndpointStore.create_ok hcreate
    rw [hid, hkey]
    exact .inr rfl
  | update id nonce request =>
    obtain ⟨⟨t₁, found⟩, hupdate, heq⟩ := Except.map_eq_ok h
    cases heq
    rw [(ModelEndpointStore.update_ok hupdate).1] at he
    exact .inl (ModelEndpointStore.get_mem (Option.mem_toList.1 he))
  | toggle id enabled =>
    obtain ⟨⟨t₁, found⟩, htoggle, heq⟩ := Except.map_eq_ok h
    cases heq
    have hget := (ModelEndpointStore.toggle_ok htoggle).1 e (Option.mem_toList.1 he)
    exact .inl (ModelEndpointStore.get_mem hget)
  | get id =>
    cases h
    exact .inl (ModelEndpointStore.get_mem (Option.mem_toList.1 he))
  | list =>
    cases h
    obtain ⟨row, hrow, rfl⟩ := List.mem_map.1 he
    exact .inl ⟨row, hrow, rfl⟩
  | listByModel modelId =>
    cases h
    rw [ModelEndpointStore.listByModel] at he
    split at he
    · cases he
    · obtain ⟨row, hrow, rfl⟩ := List.mem_map.1 he
      exact .inl ⟨row, List.mem_of_mem_filter hrow, rfl⟩

end Columns

namespace EndpointRun

variable {κ : Type} {gcm : Aes256Gcm κ} {db : ModelStore} {s : EndpointRun κ} {cipher : Option κ}
  {op : EndpointOp} {t' : ModelTables} {answers : List ModelEndpoint}

/-- What a call that stores no key has written. -/
theorem record_unnamed (hstores : op.stores db = none) :
    (s.record db cipher op t').written = s.written := by
  rw [record, hstores]

/-- What a call that stores a key has written. -/
theorem record_named {key : String} {apiKey : Option String}
    (hstores : op.stores db = some (key, apiKey)) :
    (s.record db cipher op t').written = s.written.insert key (apiKey, cipher) := by
  rw [record, hstores]

/-- A call keeps every column what was stored last. -/
theorem Sealed.record (h : s.Sealed gcm)
    (hrun : (db.endpoints cipher).run gcm s.tables op = .ok (t', answers)) :
    (s.record db cipher op t').Sealed gcm := by
  intro row' (hrow' : row' ∈ t'.endpoints)
  rcases hstores : op.stores db with - | ⟨key, apiKey⟩
  · obtain ⟨f, hid, hcolumn, hrows⟩ := run_unnamed hrun hstores
    rw [hrows] at hrow'
    obtain ⟨row, hrow, rfl⟩ := List.mem_map.1 hrow'
    rw [Wrote, record_unnamed hstores, hid, hcolumn]
    exact h row hrow
  · rw [record_named hstores]
    rcases run_named hrun hstores row' hrow' with ⟨hid, nonce, hcolumn⟩ | ⟨hne, hrow⟩
    · refine ⟨apiKey, cipher, nonce, ?_, hcolumn⟩
      rw [hid]
      exact KeyMap.get_insert_self ..
    · obtain ⟨stored, writer, nonce, hwritten, hcolumn⟩ := h row' hrow
      exact ⟨stored, writer, nonce, (KeyMap.get_insert_of_ne hne).trans hwritten, hcolumn⟩

theorem Sealed.next (h : s.Sealed gcm) : (s.next gcm db cipher op).Sealed gcm := by
  rw [EndpointRun.next]
  split
  · next t' answers hrun => exact h.record hrun
  · exact h

theorem sealed_invariant (gcm : Aes256Gcm κ) (db : ModelStore) :
    (runs gcm db).Invariant (Sealed gcm) where
  init s hs row hrow := by
    rw [hs.1] at hrow
    cases hrow
  step s l s' h hstep := by
    rw [show s' = _ from hstep]
    exact h.next

/-- Whoever stores a key is told it. -/
theorem restores_self (stored : Option String) (cipher : Option κ) :
    Restores stored cipher cipher stored ↔ Legible stored cipher cipher :=
  iff_of_true ⟨.inl rfl, fun _ ↦ rfl⟩ fun _ _ ↦
    ⟨fun hnone ↦ .inl hnone, fun hne hnone ↦ absurd hnone hne⟩

/-- **In every run, what is returned of an endpoint is the key stored last or nothing**, and that
key under the cipher that stored it or where none did, exactly where the reader can tell plaintext
from ciphertext; and a call that names no key keeps every column. -/
theorem endpoint_reads (hs : (runs gcm db).Reachable s)
    (hrun : (db.endpoints cipher).run gcm s.tables op = .ok (t', answers)) :
    (∀ e ∈ answers, ∃ stored writer,
      (s.record db cipher op t').written.get e.id = some (stored, writer) ∧
        (Restores stored writer cipher e.apiKey ↔ Legible stored writer cipher)) ∧
      (op.stores db = none → t'.endpoints.map (fun row ↦ (row.id, row.apiKey)) =
        s.tables.endpoints.map fun row ↦ (row.id, row.apiKey)) := by
  constructor
  · intro e he
    rcases run_answers hrun e he with ⟨row, hrow, rfl⟩ | hstores
    · obtain ⟨stored, writer, nonce, hwritten, hcolumn⟩ :=
        ((sealed_invariant gcm db).of_reachable hs).record hrun row hrow
      refine ⟨stored, writer, hwritten, ?_⟩
      show Restores _ _ _ (decryptApiKey gcm cipher row.apiKey) ↔ _
      rw [hcolumn]
      exact restores_iff gcm nonce writer cipher stored
    · refine ⟨e.apiKey, cipher, ?_, restores_self e.apiKey cipher⟩
      rw [record_named hstores]
      exact KeyMap.get_insert_self ..
  · intro hstores
    obtain ⟨f, hid, hcolumn, hrows⟩ := run_unnamed hrun hstores
    rw [hrows, List.map_map]
    refine List.map_congr_left fun row _ ↦ ?_
    show ((f row).id, (f row).apiKey) = _
    rw [hid, hcolumn]

end EndpointRun

/-! ### Ciphertext that is handed out -/

/-- A cipher that leaves the text as it is, under a tag that is its key. -/
def tagged : Aes256Gcm UInt8 where
  encrypt k _ p := p ++ List.replicate 16 k
  decrypt k _ c :=
    if List.replicate 16 k <:+ c then some (c.take (c.length - 16)) else none
  decrypt_eq_some {k _ c p} := by
    rw [Option.ite_none_right_eq_some, Option.some_inj]
    constructor
    · rintro ⟨⟨rest, rfl⟩, rfl⟩
      rw [List.length_append, List.length_replicate, Nat.add_sub_cancel, List.take_left]
    · rintro rfl
      refine ⟨List.suffix_append _ _, ?_⟩
      rw [List.length_append, List.length_replicate, Nat.add_sub_cancel, List.take_left]
  key_eq {k k' _ p p'} h := by
    have hlast := (List.append_inj' h (by rw [List.length_replicate, List.length_replicate])).2
    exact List.replicate_right_inj (by omega) |>.1 hlast
  length_encrypt k _ p := by rw [List.length_append, List.length_replicate]

namespace EndpointRun

/-- A SQLite database. -/
def sqliteDb : ModelStore := ⟨.sqlite, some⟩

/-- One model, and no endpoint. -/
def oneModel : EndpointRun UInt8 where
  tables := ⟨[{ id := "m", name := "gpt-4o", enabled := true, displayName := none }], []⟩
  written := .empty

/-- The model is given an endpoint with a key. -/
def createSealed : EndpointOp :=
  .create "e" "m" ⟨List.replicate 12 0, rfl⟩
    { providerType := "openai", baseUrl := none, apiKey := some "sk-1", weight := 1,
      enabled := true }

/-- After a process with a cipher has created the endpoint. -/
def oneSealed : EndpointRun UInt8 := oneModel.next tagged sqliteDb (some 7) createSealed

theorem oneSealed_reachable : (runs tagged sqliteDb).Reachable oneSealed :=
  .step (l := (some 7, createSealed)) (.init ⟨rfl, rfl⟩) rfl

theorem endpoint_reads_oneSealed :
    (∀ e ∈ ((sqliteDb.endpoints (some 7)).get tagged oneSealed.tables "e").toList,
      ∃ stored writer, (oneSealed.record sqliteDb (some 7) (.get "e") oneSealed.tables).written.get
        e.id = some (stored, writer) ∧
          (Restores stored writer (some 7) e.apiKey ↔ Legible stored writer (some 7))) ∧
      (EndpointOp.stores sqliteDb (.get "e") = none →
        oneSealed.tables.endpoints.map (fun row ↦ (row.id, row.apiKey)) =
          oneSealed.tables.endpoints.map fun row ↦ (row.id, row.apiKey)) :=
  endpoint_reads oneSealed_reachable rfl

/-- A process without a cipher hands out what another has encrypted. -/
theorem ciphertext_handed_out :
    ¬∀ s, (runs tagged sqliteDb).Reachable s → ∀ cipher op t' answers,
      (sqliteDb.endpoints cipher).run tagged s.tables op = .ok (t', answers) →
        ∀ e ∈ answers, ∃ stored writer,
          (s.record sqliteDb cipher op t').written.get e.id = some (stored, writer) ∧
            Restores stored writer cipher e.apiKey := by
  intro h
  have hget : (sqliteDb.endpoints none).get tagged oneSealed.tables "e" = some
      { id := "e", modelId := "m", providerType := "openai", baseUrl := none,
        apiKey := some (CipherKey.encrypt tagged 7 ⟨List.replicate 12 0, rfl⟩ "sk-1"),
        weight := 1, enabled := true } := rfl
  obtain ⟨stored, writer, hwritten, hrestores, -⟩ :=
    h oneSealed oneSealed_reachable none (.get "e") _ _ rfl _ (Option.mem_toList.2 hget)
  have hstored : some (stored, writer) = some (some "sk-1", some 7) := hwritten.symm.trans rfl
  cases hstored
  rcases hrestores with heq | hnone
  · exact CipherKey.encrypt_ne 7 _ "sk-1" (Option.some.inj heq)
  · cases hnone

end EndpointRun

end Himadri
