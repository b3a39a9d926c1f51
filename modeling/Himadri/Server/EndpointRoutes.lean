import Himadri.Admin.EndpointKeys
import Himadri.Admin.ModelDeletes
import Himadri.Admin.UrlGuard
import Himadri.Gateway.Catalog
import Himadri.Server.Metrics

/-!
# The routes of endpoints

The handlers of the admin API that read and write endpoints, one statement at a time, while others
run. A handler checks the pair of provider type and base URL that its write is to leave, has the
store write it, reads the row back and answers without its key. An update checks the pair against a
row that it reads beforehand, and the store merges the request into a row that it reads again.

That a base URL passed the guard, and that no answer shows a key, holds of every run
(`EndpointRoutes.guarded_and_redacted`). That the registry builds a client for every endpoint rests
on the two reads of an update: it holds of every run in which they agree on what the request leaves
alone (`EndpointRoutes.rows_routable`), and what the row becomes between the second read and the
write does not matter.
-/

namespace Himadri

/-! ### What a handler checks and answers -/

/-- `ApiError::not_found`. -/
def ApiError.notFound : ApiError := ⟨404, "not found"⟩

/-- `ApiError::from(AdminError)`. -/
def ApiError.ofAdminError : AdminError → ApiError
  | .notFound => .notFound
  | .validation reason => ⟨400, reason⟩
  | .conflict reason => ⟨409, reason⟩
  | .store => ⟨500, "internal storage error"⟩

/-- `ProviderRegistry::validate`. -/
def ProviderRegistry.validate (registry : ProviderRegistry) (providerType : String)
    (baseUrl : Option String) : Except ProviderError Unit :=
  (registry.build providerType baseUrl).map fun _ ↦ ()

/-- `AppState::validate_endpoint_provider`. -/
def validateEndpointProvider (registry : ProviderRegistry) (providerType : String)
    (baseUrl : Option String) : Except ApiError Unit :=
  (registry.validate providerType baseUrl).mapError fun e ↦
    ⟨400, e.display ++ ". Use a built-in provider type (see GET /admin/known-providers), " ++
      "or supply a base_url to route a custom vendor through a generic OpenAI-compatible client."⟩

/-- `redact_endpoint`. -/
def redactEndpoint (e : ModelEndpoint) : ModelEndpoint :=
  if e.apiKey.isSome then { e with apiKey := none } else e

/-- A status with the endpoints in the body. -/
structure EndpointAnswer where
  status : ℕ
  endpoints : List ModelEndpoint

/-- A request to one of the routes. -/
inductive EndpointRequest
  | list
  | listByModel (modelId : String)
  | get (id : String)
  | create (modelId : String) (request : CreateModelEndpointRequest)
  | update (id : String) (request : UpdateModelEndpointRequest)
  | toggle (id : String) (enabled : Bool)
  | delete (id : String)

/-- What a handler does next. -/
inductive EndpointCall
  | start (request : EndpointRequest)
  /-- `create` of the store looks for the model. -/
  | selectModel (modelId : String) (request : CreateModelEndpointRequest)
  /-- `create` of the store inserts the row; the endpoint is what it returns. -/
  | insert (row endpoint : ModelEndpoint)
  /-- `update` of the store reads the row; the request was checked against `checked`. -/
  | selectRow (id : String) (request : UpdateModelEndpointRequest) (checked : ModelEndpoint)
  /-- `update` of the store writes the request, merged into `current`. -/
  | write (id : String) (request : UpdateModelEndpointRequest) (current : ModelEndpoint)
  /-- `toggle` of the store. -/
  | setEnabled (id : String) (enabled : Bool)
  /-- `delete` of the store. -/
  | remove (id : String)
  /-- The store reads the row that it has written. -/
  | readBack (id : String)
  | answered (answer : Except ApiError EndpointAnswer)

/-- The tables, and the handlers in the order of their requests. -/
structure EndpointRoutes where
  tables : ModelTables
  calls : List EndpointCall

/-- A request comes in; a handler takes its next step, with what it draws, where its statement may
fail; or the routes of models change their table or delete the endpoints of one. -/
inductive EndpointStep
  | request (request : EndpointRequest)
  | advance (j : ℕ) (uuid : String) (nonce : Nonce) (fails : Bool)
  | models (models : List StoredModel)
  | deleteEndpoints (key : String)

/-- `DELETE FROM model_endpoints WHERE id = …`. -/
def ModelTables.deleteEndpoint (t : ModelTables) (key : String) : ModelTables :=
  { t with endpoints := t.endpoints.filter (·.id != key) }

namespace EndpointCall

/-! ### Statements -/

/-- The call ends with an error of the store. -/
def failed (e : AdminError) : EndpointCall := .answered (.error (.ofAdminError e))

/-- On with the call where its checks have passed. -/
def checked (checks : Except ApiError Unit) (call : EndpointCall) : EndpointCall :=
  match checks with
  | .ok () => call
  | .error e => .answered (.error e)

section Statements

variable {κ : Type} (gcm : Aes256Gcm κ) (store : ModelEndpointStore κ) (t : ModelTables)
  (id : String) (fails : Bool)

/-- A row is read. -/
def readRow (onRow : ModelEndpoint → EndpointCall) : EndpointCall :=
  match store.rowKey id with
  | none => failed .notFound
  | some _ =>
    if fails then failed .store
    else
      match store.get gcm t id with
      | none => failed .notFound
      | some e => onRow e

/-- Something is written, and on where that went through. -/
def settle (result : Except AdminError ModelTables) (call : EndpointCall) :
    ModelTables × EndpointCall :=
  match fails, result with
  | false, .ok t' => (t', call)
  | false, .error e => (t, failed e)
  | true, _ => (t, failed .store)

/-- A row is updated, to be read back. -/
def updateRow (f : ModelEndpoint → ModelEndpoint) : ModelTables × EndpointCall :=
  match store.rowKey id with
  | none => (t, failed .notFound)
  | some key => settle t fails (t.updateEndpoint store.dialect key f) (.readBack id)

/-- A row is deleted. -/
def deleteRow : ModelTables × EndpointCall :=
  match store.rowKey id with
  | none => (t, failed .notFound)
  | some key =>
    settle t fails (.ok (t.deleteEndpoint key))
      (if (t.endpoint key).isSome then .answered (.ok ⟨204, []⟩) else failed .notFound)

/-- The answer with the endpoint. -/
def answerOne (e : ModelEndpoint) : EndpointCall := .answered (.ok ⟨200, [redactEndpoint e]⟩)

/-- The answer with the endpoints. -/
def answerAll (endpoints : List ModelEndpoint) : EndpointCall :=
  .answered (.ok ⟨200, endpoints.map redactEndpoint⟩)

end Statements

/-! ### The handlers -/

section Handlers

variable {κ : Type} (registry : ProviderRegistry) (allowPrivate : Bool) (gcm : Aes256Gcm κ)
  (store : ModelEndpointStore κ) (t : ModelTables) (fails : Bool)

/-- The checks of `create_model_endpoint`, and of `create_endpoint` that it calls. -/
def checkCreate (request : CreateModelEndpointRequest) : Except ApiError Unit := do
  validateEndpointProvider registry request.providerType request.baseUrl
  (guardBaseUrl allowPrivate request.baseUrl).mapError .ofAdminError

/-- The checks of `update_model_endpoint`, and of `update_endpoint` that it calls. -/
def checkUpdate (request : UpdateModelEndpointRequest) (current : ModelEndpoint) :
    Except ApiError Unit := do
  let (providerType, baseUrl) := request.effectiveRoutingPair current
  validateEndpointProvider registry providerType baseUrl
  (guardBaseUrl allowPrivate request.baseUrl.join).mapError .ofAdminError

/-- The check of `toggle_model_endpoint`. -/
def checkToggle (current : ModelEndpoint) : Except ApiError Unit :=
  validateEndpointProvider registry current.providerType current.baseUrl

/-- What a handler does of its own. -/
def begin : EndpointRequest → EndpointCall
  | .list => if fails then failed .store else answerAll (store.list gcm t)
  | .listByModel modelId =>
    match store.rowKey modelId with
    | none => answerAll []
    | some _ => if fails then failed .store else answerAll (store.listByModel gcm t modelId)
  | .get id => readRow gcm store t id fails answerOne
  | .create modelId request =>
    checked (checkCreate registry allowPrivate request) (.selectModel modelId request)
  | .update id request =>
    readRow gcm store t id fails fun current ↦
      checked (checkUpdate registry allowPrivate request current) (.selectRow id request current)
  | .toggle id true =>
    readRow gcm store t id fails fun current ↦
      checked (checkToggle registry current) (.setEnabled id true)
  | .toggle id false => .setEnabled id false
  | .delete id => .remove id

/-- `create` of the store, up to its second statement. -/
def findModel (uuid : String) (nonce : Nonce) (modelId : String)
    (request : CreateModelEndpointRequest) : EndpointCall :=
  match store.rowKey modelId with
  | none => failed .notFound
  | some model =>
    if fails then failed .store
    else if (t.model model).isNone then failed .notFound
    else
      let row : ModelEndpoint :=
        { id := uuid, modelId := model, providerType := request.providerType,
          baseUrl := request.baseUrl, apiKey := store.encryptApiKey gcm nonce request.apiKey,
          weight := request.weight, enabled := request.enabled }
      .insert row { row with modelId, apiKey := request.apiKey }

/-- The next step of a handler. -/
def advance (uuid : String) (nonce : Nonce) : EndpointCall → Option (ModelTables × EndpointCall)
  | .start request => some (t, begin registry allowPrivate gcm store t fails request)
  | .selectModel modelId request =>
    some (t, findModel gcm store t fails uuid nonce modelId request)
  | .insert row endpoint =>
    some (settle t fails (t.insertEndpoint store.dialect row)
      (.answered (.ok ⟨201, [redactEndpoint endpoint]⟩)))
  | .selectRow id request _ =>
    some (t, readRow gcm store t id fails fun current ↦ .write id request current)
  | .write id request current =>
    some (updateRow store t id fails
      (ModelEndpoint.writeBack (store.sealRequest gcm nonce request) current))
  | .setEnabled id enabled => some (updateRow store t id fails ({ · with enabled }))
  | .remove id => some (deleteRow store t id fails)
  | .readBack id => some (t, readRow gcm store t id fails answerOne)
  | .answered _ => none

end Handlers

end EndpointCall

namespace EndpointRoutes

section Runs

variable {κ : Type} (registry : ProviderRegistry) (allowPrivate : Bool) (gcm : Aes256Gcm κ)
  (store : ModelEndpointStore κ) (s : EndpointRoutes)

/-- One step. -/
def step? : EndpointStep → Option EndpointRoutes
  | .request request => some { s with calls := s.calls ++ [.start request] }
  | .advance j uuid nonce fails =>
    s.calls[j]?.bind fun call ↦
      (call.advance registry allowPrivate gcm store s.tables fails uuid nonce).map fun (t', call') ↦
        ⟨t', s.calls.set j call'⟩
  | .models models => some { s with tables := { s.tables with models } }
  | .deleteEndpoints key => some { s with tables := s.tables.deleteEndpoints key }

/-- The runs, from a database without endpoints. -/
def runs : TransitionSystem EndpointRoutes EndpointStep :=
  .ofPartial (fun s ↦ s.tables.endpoints = [] ∧ s.calls = [])
    (step? registry allowPrivate gcm store)

/-- Where an update reads the row again, the pair that the request leaves is the one checked. -/
def FreshCall (t : ModelTables) : EndpointCall → Prop
  | .selectRow id request checked => ∀ current ∈ store.get gcm t id,
    request.effectiveRoutingPair current = request.effectiveRoutingPair checked
  | _ => True

/-- The step is of a handler that is fresh. -/
def Fresh : EndpointStep → Prop
  | .advance j _ _ _ => ∀ call ∈ s.calls[j]?, FreshCall gcm store s.tables call
  | _ => True

instance (t : ModelTables) : ∀ call, Decidable (FreshCall gcm store t call)
  | .selectRow _ request checked => inferInstanceAs (Decidable (∀ current ∈ _,
    request.effectiveRoutingPair current = request.effectiveRoutingPair checked))
  | .start _ => inferInstanceAs (Decidable True)
  | .selectModel _ _ => inferInstanceAs (Decidable True)
  | .insert _ _ => inferInstanceAs (Decidable True)
  | .write _ _ _ => inferInstanceAs (Decidable True)
  | .setEnabled _ _ => inferInstanceAs (Decidable True)
  | .remove _ => inferInstanceAs (Decidable True)
  | .readBack _ => inferInstanceAs (Decidable True)
  | .answered _ => inferInstanceAs (Decidable True)

instance : ∀ op, Decidable (Fresh gcm store s op)
  | .advance j _ _ _ => inferInstanceAs (Decidable (∀ call ∈ s.calls[j]?, FreshCall ..))
  | .request _ => inferInstanceAs (Decidable True)
  | .models _ => inferInstanceAs (Decidable True)
  | .deleteEndpoints _ => inferInstanceAs (Decidable True)

end Runs

/-! ### What every step keeps -/

/-- The pair of every row has the property. -/
def RowsHave (P : String → Option String → Prop) (t : ModelTables) : Prop :=
  ∀ row ∈ t.endpoints, P row.providerType row.baseUrl

/-- What a handler has checked and read, and is about to write, has the property. -/
def KeepsCall (P : String → Option String → Prop) (registry : ProviderRegistry)
    (allowPrivate : Bool) : EndpointCall → Prop
  | .selectModel _ request => EndpointCall.checkCreate registry allowPrivate request = .ok ()
  | .insert row _ => P row.providerType row.baseUrl
  | .selectRow _ request checked =>
    EndpointCall.checkUpdate registry allowPrivate request checked = .ok ()
  | .write _ request current =>
    P (request.effectiveRoutingPair current).1 (request.effectiveRoutingPair current).2
  | .answered (.ok answer) => ∀ e ∈ answer.endpoints, e.apiKey = none
  | _ => True

/-- Every row has a property of its pair, and so has what handlers are about to write; what they
have answered shows no key. -/
structure Keeps (P : String → Option String → Prop) (registry : ProviderRegistry)
    (allowPrivate : Bool) (s : EndpointRoutes) : Prop where
  rows : RowsHave P s.tables
  calls : ∀ call ∈ s.calls, KeepsCall P registry allowPrivate call

section Keeps

variable {κ : Type} {registry : ProviderRegistry} {allowPrivate : Bool} {gcm : Aes256Gcm κ}
  {store : ModelEndpointStore κ} {s s' : EndpointRoutes} {t t' : ModelTables} {fails : Bool}
  {P : String → Option String → Prop} {call : EndpointCall} {id key uuid : String} {nonce : Nonce}

open EndpointCall

theorem RowsHave.get (h : RowsHave P t) {e : ModelEndpoint} (he : store.get gcm t id = some e) :
    P e.providerType e.baseUrl := by
  obtain ⟨row, hrow, rfl⟩ := ModelEndpointStore.get_mem he
  exact h row hrow

theorem RowsHave.updateEndpoint (h : RowsHave P t) {f : ModelEndpoint → ModelEndpoint}
    (hf : ∀ row, P row.providerType row.baseUrl → P (f row).providerType (f row).baseUrl)
    (hupdate : t.updateEndpoint store.dialect key f = .ok t') : RowsHave P t' := by
  obtain rfl := ModelTables.updateEndpoint_ok hupdate
  intro row' hrow'
  obtain ⟨row, hrow, rfl⟩ := List.mem_map.1 hrow'
  split
  · exact hf row (h row hrow)
  · exact h row hrow

theorem RowsHave.insertEndpoint (h : RowsHave P t) {row : ModelEndpoint}
    (hrow : P row.providerType row.baseUrl)
    (hinsert : t.insertEndpoint store.dialect row = .ok t') : RowsHave P t' := by
  obtain ⟨rfl, -⟩ := ModelTables.insertEndpoint_ok hinsert
  intro row' hrow'
  rcases List.mem_append.1 hrow' with hrow' | hrow'
  · exact h row' hrow'
  · obtain rfl := List.mem_singleton.1 hrow'
    exact hrow

theorem redactEndpoint_apiKey (e : ModelEndpoint) : (redactEndpoint e).apiKey = none := by
  rw [redactEndpoint]
  split
  · rfl
  · next hnone => exact Option.not_isSome_iff_eq_none.1 hnone

theorem keepsCall_redacted (status : ℕ) (endpoints : List ModelEndpoint) :
    KeepsCall P registry allowPrivate
      (.answered (.ok ⟨status, endpoints.map redactEndpoint⟩)) := by
  intro e he
  obtain ⟨e', -, rfl⟩ := List.mem_map.1 he
  exact redactEndpoint_apiKey e'

theorem keepsCall_checked {checks : Except ApiError Unit}
    (h : checks = .ok () → KeepsCall P registry allowPrivate call) :
    KeepsCall P registry allowPrivate (checked checks call) := by
  rcases checks with e | ⟨⟩
  · trivial
  · exact h rfl

/-- A handler goes on as it should from every row that it can read. -/
theorem keepsCall_readRow {onRow : ModelEndpoint → EndpointCall}
    (h : ∀ e, store.get gcm t id = some e → KeepsCall P registry allowPrivate (onRow e)) :
    KeepsCall P registry allowPrivate (readRow gcm store t id fails onRow) := by
  rw [readRow]
  split
  · trivial
  · split
    · trivial
    · split
      · trivial
      · next e he => exact h e he

theorem keepsCall_begin (request : EndpointRequest) :
    KeepsCall P registry allowPrivate
      (begin registry allowPrivate gcm store t fails request) := by
  rcases request with - | modelId | id | ⟨modelId, request⟩ | ⟨id, request⟩ | ⟨id, enabled⟩ | id
  · rw [begin]
    split
    · trivial
    · exact keepsCall_redacted 200 _
  · rw [begin]
    split
    · exact keepsCall_redacted 200 []
    · split
      · trivial
      · exact keepsCall_redacted 200 _
  · exact keepsCall_readRow fun e _ ↦ keepsCall_redacted 200 [e]
  · exact keepsCall_checked fun hchecks ↦ hchecks
  · exact keepsCall_readRow fun current _ ↦ keepsCall_checked fun hchecks ↦ hchecks
  · rcases enabled with - | -
    · trivial
    · exact keepsCall_readRow fun current _ ↦ keepsCall_checked fun _ ↦ trivial
  · trivial

theorem keepsCall_findModel {modelId : String} {request : CreateModelEndpointRequest}
    (h : P request.providerType request.baseUrl) : KeepsCall P registry allowPrivate
      (findModel gcm store t fails uuid nonce modelId request) := by
  rw [findModel]
  split
  · trivial
  · split
    · trivial
    · split
      · trivial
      · exact h

/-- A statement that writes, where its result has the property. -/
theorem keeps_settle (hrows : RowsHave P t) {result : Except AdminError ModelTables}
    (hresult : ∀ t', result = .ok t' → RowsHave P t')
    (hcall : KeepsCall P registry allowPrivate call) :
    RowsHave P (settle t fails result call).1 ∧
      KeepsCall P registry allowPrivate (settle t fails result call).2 := by
  rcases fails with - | -
  · rcases result with e | t'
    · exact ⟨hrows, trivial⟩
    · exact ⟨hresult t' rfl, hcall⟩
  · exact ⟨hrows, trivial⟩

theorem keeps_updateRow (hrows : RowsHave P t) {f : ModelEndpoint → ModelEndpoint}
    (hf : ∀ row, P row.providerType row.baseUrl → P (f row).providerType (f row).baseUrl) :
    RowsHave P (updateRow store t id fails f).1 ∧
      KeepsCall P registry allowPrivate (updateRow store t id fails f).2 := by
  rw [updateRow]
  split
  · exact ⟨hrows, trivial⟩
  · exact keeps_settle hrows (fun t' ↦ hrows.updateEndpoint hf) trivial

theorem keeps_deleteRow (hrows : RowsHave P t) :
    RowsHave P (deleteRow store t id fails).1 ∧
      KeepsCall P registry allowPrivate (deleteRow store t id fails).2 := by
  rw [deleteRow]
  split
  · exact ⟨hrows, trivial⟩
  · refine keeps_settle hrows (fun t' ht' ↦ ?_) ?_
    · obtain rfl := Except.ok.inj ht'
      exact fun row hrow ↦ hrows row (List.mem_filter.1 hrow).1
    · split
      · exact fun e he ↦ absurd he List.not_mem_nil
      · trivial

/-- **The step of a handler.** What its checks ask for is enough for what it writes, where the pair
an update merges has the property. -/
theorem keeps_advance
    (hcreate : ∀ request, checkCreate registry allowPrivate request = .ok () →
      P request.providerType request.baseUrl)
    (hrows : RowsHave P t) (hcall : KeepsCall P registry allowPrivate call)
    (hmerge : ∀ id request checked, call = .selectRow id request checked →
      ∀ current, store.get gcm t id = some current →
        P (request.effectiveRoutingPair current).1 (request.effectiveRoutingPair current).2)
    {call' : EndpointCall}
    (h : call.advance registry allowPrivate gcm store t fails uuid nonce = some (t', call')) :
    RowsHave P t' ∧ KeepsCall P registry allowPrivate call' := by
  suffices hkeeps : ∀ r, call.advance registry allowPrivate gcm store t fails uuid nonce = some r →
      RowsHave P r.1 ∧ KeepsCall P registry allowPrivate r.2 from hkeeps _ h
  intro r hr
  rcases call with request | ⟨modelId, request⟩ | ⟨row, endpoint⟩ | ⟨id, request, checked⟩ |
    ⟨id, request, current⟩ | ⟨id, enabled⟩ | id | id | answer
  · obtain rfl := Option.some.inj hr
    exact ⟨hrows, keepsCall_begin request⟩
  · obtain rfl := Option.some.inj hr
    exact ⟨hrows, keepsCall_findModel (hcreate request hcall)⟩
  · obtain rfl := Option.some.inj hr
    exact keeps_settle hrows (fun t' ↦ hrows.insertEndpoint hcall)
      (keepsCall_redacted 201 [endpoint])
  · obtain rfl := Option.some.inj hr
    exact ⟨hrows, keepsCall_readRow fun current ↦ hmerge id request checked rfl current⟩
  · obtain rfl := Option.some.inj hr
    refine keeps_updateRow hrows fun row _ ↦ ?_
    rw [ModelEndpoint.writeBack_eq]
    exact hcall
  · obtain rfl := Option.some.inj hr
    exact keeps_updateRow hrows fun row hrow ↦ hrow
  · obtain rfl := Option.some.inj hr
    exact keeps_deleteRow hrows
  · obtain rfl := Option.some.inj hr
    exact ⟨hrows, keepsCall_readRow fun e _ ↦ keepsCall_redacted 200 [e]⟩
  · cases hr

/-- A step keeps the property. -/
theorem Keeps.step (h : Keeps P registry allowPrivate s)
    (hcreate : ∀ request, checkCreate registry allowPrivate request = .ok () →
      P request.providerType request.baseUrl) {op : EndpointStep}
    (hmerge : ∀ j uuid nonce fails, op = .advance j uuid nonce fails →
      ∀ id request checked, s.calls[j]? = some (.selectRow id request checked) →
        checkUpdate registry allowPrivate request checked = .ok () →
        ∀ current, store.get gcm s.tables id = some current →
          P (request.effectiveRoutingPair current).1 (request.effectiveRoutingPair current).2)
    (hstep : s.step? registry allowPrivate gcm store op = some s') :
    Keeps P registry allowPrivate s' := by
  rcases op with request | ⟨j, uuid, nonce, fails⟩ | models | key
  · obtain rfl := Option.some.inj hstep
    refine ⟨h.rows, fun call hcall ↦ ?_⟩
    rcases List.mem_append.1 hcall with hcall | hcall
    · exact h.calls call hcall
    · obtain rfl := List.mem_singleton.1 hcall
      trivial
  · obtain ⟨call, hj, hstep⟩ := Option.bind_eq_some_iff.1 hstep
    obtain ⟨⟨t', call'⟩, hadvance, rfl⟩ := Option.map_eq_some_iff.1 hstep
    have hcall := h.calls call (List.mem_of_getElem? hj)
    obtain ⟨hrows, hcall'⟩ := keeps_advance hcreate h.rows hcall
      (fun id request checked heq ↦ hmerge j uuid nonce fails rfl id request checked
        (heq ▸ hj) (by rw [heq] at hcall; exact hcall)) hadvance
    refine ⟨hrows, fun c hc ↦ ?_⟩
    rcases List.mem_or_eq_of_mem_set hc with hc | rfl
    · exact h.calls c hc
    · exact hcall'
  · obtain rfl := Option.some.inj hstep
    exact ⟨h.rows, h.calls⟩
  · obtain rfl := Option.some.inj hstep
    exact ⟨fun row hrow ↦ h.rows row (List.mem_filter.1 hrow).1, h.calls⟩

theorem Keeps.init (h : s.tables.endpoints = [] ∧ s.calls = []) :
    Keeps P registry allowPrivate s := by
  constructor
  · intro row hrow
    rw [h.1] at hrow
    cases hrow
  · intro call hcall
    rw [h.2] at hcall
    cases hcall

end Keeps

/-! ### What runs promise -/

section Promises

variable {κ : Type} {registry : ProviderRegistry} {allowPrivate : Bool} {gcm : Aes256Gcm κ}
  {store : ModelEndpointStore κ} {s : EndpointRoutes}

open EndpointCall

theorem isOk_build_of_validate {providerType : String} {baseUrl : Option String}
    (h : validateEndpointProvider registry providerType baseUrl = .ok ()) :
    (registry.build providerType baseUrl).isOk = true := by
  rw [validateEndpointProvider, ProviderRegistry.validate] at h
  rcases hbuild : registry.build providerType baseUrl with e | client
  · rw [hbuild] at h
    cases h
  · rfl

theorem guardBaseUrl_of_mapError {baseUrl : Option String}
    (h : (guardBaseUrl allowPrivate baseUrl).mapError ApiError.ofAdminError = .ok ()) :
    guardBaseUrl allowPrivate baseUrl = .ok () := by
  rcases hguard : guardBaseUrl allowPrivate baseUrl with e | ⟨⟩
  · rw [hguard] at h
    cases h
  · rfl

/-- What the checks of `create` ask for. -/
theorem of_checkCreate {request : CreateModelEndpointRequest}
    (h : checkCreate registry allowPrivate request = .ok ()) :
    (registry.build request.providerType request.baseUrl).isOk = true ∧
      guardBaseUrl allowPrivate request.baseUrl = .ok () := by
  obtain ⟨⟨⟩, hvalidate, hguard⟩ := Except.bind_eq_ok h
  exact ⟨isOk_build_of_validate hvalidate, guardBaseUrl_of_mapError hguard⟩

/-- What the checks of `update` ask for. -/
theorem of_checkUpdate {request : UpdateModelEndpointRequest} {current : ModelEndpoint}
    (h : checkUpdate registry allowPrivate request current = .ok ()) :
    (registry.build (request.effectiveRoutingPair current).1
        (request.effectiveRoutingPair current).2).isOk = true ∧
      guardBaseUrl allowPrivate request.baseUrl.join = .ok () := by
  obtain ⟨⟨⟩, hvalidate, hguard⟩ := Except.bind_eq_ok h
  exact ⟨isOk_build_of_validate hvalidate, guardBaseUrl_of_mapError hguard⟩

/-- The base URLs have passed the guard. -/
def Guarded (allowPrivate : Bool) (_ : String) (baseUrl : Option String) : Prop :=
  guardBaseUrl allowPrivate baseUrl = .ok ()

/-- The registry builds a client for the pair. -/
def Routable (registry : ProviderRegistry) (providerType : String) (baseUrl : Option String) :
    Prop := (registry.build providerType baseUrl).isOk = true

theorem keeps_guarded_invariant : (runs registry allowPrivate gcm store).Invariant
    (Keeps (Guarded allowPrivate) registry allowPrivate) where
  init _ h := .init h
  step s op s' h hstep := by
    refine h.step (fun request hchecks ↦ (of_checkCreate hchecks).2)
      (fun j uuid nonce fails _ id request checked _ hchecks current hcurrent ↦ ?_) hstep
    -- the request names a base URL that was checked, or the one of the row stays
    have hnamed := (of_checkUpdate hchecks).2
    have hrow : Guarded allowPrivate _ _ := h.rows.get hcurrent
    rcases hbase : request.baseUrl with - | baseUrl
    · rw [UpdateModelEndpointRequest.effectiveRoutingPair, hbase]
      exact hrow
    · rw [UpdateModelEndpointRequest.effectiveRoutingPair, hbase]
      rw [hbase] at hnamed
      exact hnamed

theorem keeps_routable_invariant :
    ((runs registry allowPrivate gcm store).guard (Fresh gcm store)).Invariant
      (Keeps (Routable registry) registry allowPrivate) where
  init _ h := .init h
  step s op s' h := by
    rintro ⟨hstep, hfresh⟩
    refine h.step (fun request hchecks ↦ (of_checkCreate hchecks).1) ?_ hstep
    rintro j uuid nonce fails rfl id request checked hj hchecks current hcurrent
    -- the pair is the one that was checked
    have hpair : request.effectiveRoutingPair current = request.effectiveRoutingPair checked :=
      hfresh _ hj current hcurrent
    rw [hpair]
    exact (of_checkUpdate hchecks).1

/-- One model, and no endpoint. -/
def oneModelOnly : EndpointRoutes := ⟨EndpointRun.oneModel.tables, []⟩

theorem oneModelOnly_init : oneModelOnly.tables.endpoints = [] ∧ oneModelOnly.calls = [] :=
  ⟨rfl, rfl⟩

theorem length_zeros : (List.replicate 12 (0 : UInt8)).length = 12 := rfl

/-- Takes the next step of a handler. -/
def go (j : ℕ) : EndpointStep := .advance j "e" ⟨List.replicate 12 0, length_zeros⟩ false

/-- An endpoint with a key is created; then an update that changes its vendor and one that turns it
off alternate, so that the second takes the change of the first back. -/
def overlapping : List EndpointStep :=
  [.request (.create "m" ⟨"groq", none, some "sk-1", 1, true⟩), go 0, go 0, go 0,
    .request (.update "e" ⟨some "openai", none, none, none, none⟩),
    .request (.update "e" (.toggle false)), go 1, go 2, go 1, go 2, go 1, go 2, go 1, go 2]

/-- Nothing is skipped where every endpoint can be built. -/
theorem skippedRows_eq_nil {models : List Model} {endpoints : List ModelEndpoint}
    (h : ∀ e ∈ endpoints, Routable registry e.providerType e.baseUrl) :
    skippedRows registry models endpoints = [] ∧
      (buildRows registry models endpoints).map (fun row ↦ (row.model, row.endpoint)) =
        enabledEndpoints models endpoints := by
  have hpairs : ∀ p ∈ enabledEndpoints models endpoints,
      ∃ client, registry.build p.2.providerType p.2.baseUrl = .ok client := by
    intro p hp
    obtain ⟨model, -, hp⟩ := List.mem_flatMap.1 hp
    obtain ⟨e, he, rfl⟩ := List.mem_map.1 hp
    have hbuild := h e (List.mem_filter.1 he).1
    rw [Routable] at hbuild
    rcases hclient : registry.build e.providerType e.baseUrl with error | client
    · rw [hclient] at hbuild
      cases hbuild
    · exact ⟨client, rfl⟩
  constructor
  · rw [skippedRows, List.filterMap_eq_nil_iff]
    intro p hp
    obtain ⟨client, hclient⟩ := hpairs p hp
    rw [hclient]
  · rw [buildRows, List.map_filterMap]
    refine (List.filterMap_congr fun p hp ↦ ?_).trans List.filterMap_some
    obtain ⟨client, hclient⟩ := hpairs p hp
    simp only [hclient]
    rfl

/-- **Every endpoint routes**, in every run in which the two reads of each update agree: a rebuild
skips none, makes a target of each enabled endpoint of an enabled model, and the catalog counts
exactly the enabled ones. -/
theorem rows_routable
    (hs : ((runs buildProviderRegistry allowPrivate gcm store).guard (Fresh gcm store)).Reachable
      s) :
    (∀ models, skippedRows buildProviderRegistry models (store.list gcm s.tables) = [] ∧
      (buildRows buildProviderRegistry models (store.list gcm s.tables)).map
        (fun row ↦ (row.model, row.endpoint)) =
          enabledEndpoints models (store.list gcm s.tables)) ∧
    ∀ e ∈ store.list gcm s.tables, e.listed = e.enabled := by
  have hkeeps := keeps_routable_invariant.of_reachable hs
  have hlist : ∀ e ∈ store.list gcm s.tables,
      Routable buildProviderRegistry e.providerType e.baseUrl := by
    intro e he
    obtain ⟨row, hrow, rfl⟩ := List.mem_map.1 he
    exact hkeeps.rows row hrow
  refine ⟨fun models ↦ skippedRows_eq_nil hlist, fun e he ↦ ?_⟩
  have hroutable := (lists_buildProviderRegistry.isOk_build_iff _ _).1 (hlist e he)
  rw [ModelEndpoint.listed, hroutable, Bool.and_true]

theorem rows_routable_overlapping : ∃ s : EndpointRoutes,
    s.tables.endpoints.map (·.providerType) = ["groq"] ∧
      (∀ models, skippedRows buildProviderRegistry models
        ((EndpointRun.sqliteDb.endpoints (some 7)).list tagged s.tables) = [] ∧
          (buildRows buildProviderRegistry models
            ((EndpointRun.sqliteDb.endpoints (some 7)).list tagged s.tables)).map
              (fun row ↦ (row.model, row.endpoint)) =
            enabledEndpoints models
              ((EndpointRun.sqliteDb.endpoints (some 7)).list tagged s.tables)) ∧
      ∀ e ∈ (EndpointRun.sqliteDb.endpoints (some 7)).list tagged s.tables,
        e.listed = e.enabled := by
  obtain ⟨s, hs, htype⟩ : ∃ s, ((runs buildProviderRegistry false tagged
      (EndpointRun.sqliteDb.endpoints (some 7))).guard
        (Fresh tagged (EndpointRun.sqliteDb.endpoints (some 7)))).Reachable s ∧
          s.tables.endpoints.map (·.providerType) = ["groq"] :=
    ⟨_, TransitionSystem.reachable_guard_of_foldlM oneModelOnly_init overlapping rfl, rfl⟩
  exact ⟨s, htype, rows_routable hs⟩

/-- One update clears the base URL, which the vendor does without; another, checked before that,
names a vendor that cannot. -/
def crossed : List EndpointStep :=
  [.request (.create "m" ⟨"groq", some "http://a", none, 1, true⟩), go 0, go 0, go 0,
    .request (.update "e" ⟨none, some none, none, none, none⟩),
    .request (.update "e" ⟨some "acme", none, none, none, none⟩),
    go 1, go 2, go 1, go 1, go 2, go 2]

/-- Where the two reads disagree, an endpoint is left that no client can be built for. -/
example : ((crossed.foldlM (step? buildProviderRegistry false tagged
    (EndpointRun.sqliteDb.endpoints none)) oneModelOnly).map fun s ↦
      s.tables.endpoints.map fun e ↦ (buildProviderRegistry.build e.providerType e.baseUrl).isOk) =
        some [false] := rfl

end Promises

end EndpointRoutes

end Himadri
