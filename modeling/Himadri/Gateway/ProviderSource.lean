import Himadri.Gateway.Dispatch

/-!
# Where routing comes from

`HIMADRI_PROVIDER_SOURCE` and what `main` makes of it. A deployment that asks for the database alone
does not start without one that can be reached, and from then on every request that is sent, on
whichever path and after whatever was configured, goes through the client of a row that a rebuild
found enabled (`strict_routes_rows`).

Under the other source the environment registers clients, and what it registers depends on the
variables alone that the start-up warning lists (`envProviders_congr`).
-/

namespace Himadri

/-! ### The setting -/

/-- `ProviderSource::parse`. -/
def ProviderSource.parse (raw : String) : Except String ProviderSource :=
  match Text.toAsciiLowercase (Text.trim raw) with
  | "" | "auto" => .ok .auto
  | "db" | "database" => .ok .db
  | other =>
    .error ("HIMADRI_PROVIDER_SOURCE has unrecognized value '" ++ other ++
      "' (expected 'auto' or 'db')")

section Start

variable (vars : String → Option String) (connect : String → Bool)

/-- `ProviderSource::from_env`. -/
def ProviderSource.fromEnv : Except String ProviderSource :=
  match vars "HIMADRI_PROVIDER_SOURCE" with
  | some raw => ProviderSource.parse raw
  | none => .ok .auto

/-- `has_model_stores`, of the handlers `build_admin` makes; `connect` is whether
`connect_model_stores` reaches the database of a URL. -/
def hasModelStores : Bool := (vars "DATABASE_URL").any connect

/-- The source `main` builds the gateway for; `none` where the process exits over it. -/
def startSource : Option ProviderSource :=
  match ProviderSource.fromEnv vars with
  | .error _ => none
  | .ok source =>
    if source = .db ∧ (vars "DATABASE_URL").isNone then none
    else if source = .db ∧ !hasModelStores vars connect then none
    else some source

/-! ### The variables of the environment's providers -/

/-- `non_preset_env::ALL`. -/
def nonPresetEnv : List String :=
  ["OPENAI_BASE_URL", "OPENAI_SECONDARY_BASE_URL", "AZURE_OPENAI_API_KEY", "AZURE_OPENAI_ENDPOINT",
    "AZURE_OPENAI_DEPLOYMENT", "AZURE_OPENAI_API_VERSION"]

/-- The candidates of `inert_provider_env_vars`. -/
def providerEnvVars : List String := presets.map (fun p ↦ apiKeyEnvVar p.1) ++ nonPresetEnv

/-- `inert_provider_env_vars`. -/
def inertProviderEnvVars (isSet : String → Bool) : List String := providerEnvVars.filter isSet

variable {vars connect} {vars' : String → Option String}

/-- What the environment registers depends on the listed variables alone. -/
theorem envProviders_congr (h : ∀ name ∈ providerEnvVars, vars name = vars' name) :
    envProviders vars = envProviders vars' := by
  have hother (name : String) (hname : name ∈ nonPresetEnv) : vars name = vars' name :=
    h name (List.mem_append_right _ hname)
  have hpresets : envPresets vars = envPresets vars' := by
    refine List.filterMap_congr fun p hp ↦ ?_
    rw [h _ (List.mem_append_left _ (List.mem_map_of_mem hp))]
  rw [envProviders, envProviders, envOpenAi, envOpenAi, envOpenAiSecondary, envOpenAiSecondary,
    envAzure, envAzure, hpresets, hother "OPENAI_BASE_URL" (by decide),
    hother "OPENAI_SECONDARY_BASE_URL" (by decide), hother "AZURE_OPENAI_API_KEY" (by decide),
    hother "AZURE_OPENAI_ENDPOINT" (by decide), hother "AZURE_OPENAI_DEPLOYMENT" (by decide),
    hother "AZURE_OPENAI_API_VERSION" (by decide)]

/-- When no variable is listed as set, the environment registers what it does without any. -/
theorem startupClients_of_inert_nil (source : ProviderSource)
    (h : inertProviderEnvVars (fun name ↦ (vars name).isSome) = []) :
    startupClients vars source = startupClients (fun _ ↦ none) source := by
  have hnone : envProviders vars = envProviders fun _ ↦ none := by
    refine envProviders_congr fun name hname ↦ ?_
    have hunset := List.filter_eq_nil_iff.1 h name hname
    rwa [Bool.not_eq_true, Option.isSome_eq_false_iff, Option.isNone_iff_eq_none] at hunset
  rw [startupClients.eq_def, startupClients.eq_def, hnone]

/-! ### The database alone -/

/-- A process that asks for the database alone starts with one that can be reached. -/
theorem connected_of_startSource (hdb : ProviderSource.fromEnv vars = .ok .db)
    {source : ProviderSource} (hstart : startSource vars connect = some source) :
    source = .db ∧ ∃ url ∈ vars "DATABASE_URL", connect url := by
  rw [startSource, hdb] at hstart
  dsimp only at hstart
  split at hstart
  · cases hstart
  · split at hstart
    · cases hstart
    · next hconnected =>
      have hstores : hasModelStores vars connect := by
        by_contra hunreached
        exact hconnected ⟨rfl, by rw [Bool.eq_false_of_not_eq_true hunreached]; rfl⟩
      obtain rfl := Option.some.inj hstart
      exact ⟨rfl, (Option.any_eq_true _ _).1 hstores⟩

end Start

namespace DispatchRun

variable {regexNew : String → Option Regex} {vars : String → Option String}
  {isMethod : String → Bool} {s : DispatchRun}

/-- The client was made of a row that was enabled in some tables. -/
def FromRow (ops : List DispatchOp) (name : String) (client : ProviderClient) : Prop :=
  ∃ models endpoints onEmpty, .rebuild models endpoints onEmpty ∈ ops ∧
    ∃ row ∈ buildRows buildProviderRegistry models endpoints, row.model.enabled ∧
      row.endpoint.enabled ∧ row.endpoint.id = name ∧ row.client = client

theorem FromRow.mono {ops ops' : List DispatchOp} {name : String} {client : ProviderClient}
    (h : FromRow ops name client) (hsub : ops ⊆ ops') : FromRow ops' name client := by
  obtain ⟨models, endpoints, onEmpty, hmem, hrow⟩ := h
  exact ⟨models, endpoints, onEmpty, hsub hmem, hrow⟩

/-- A client after a step was there before it, or was made of a row. -/
theorem get_step_cases {op : DispatchOp} {name : String} {client : ProviderClient}
    (h : (s.step regexNew op).gateway.providers.get name = some client) :
    s.gateway.providers.get name = some client ∨ FromRow [op] name client := by
  rcases op with ⟨models, endpoints, onEmpty⟩ | config | version
  · let rows := buildRows buildProviderRegistry models endpoints
    have hget : (s.gateway.registerClients rows).providers.get name = some client := by
      rw [step, Gateway.rebuildTargetsFromDb_fst] at h
      rcases hkeep : Gateway.keepsPrevious rows onEmpty with - | -
      · rw [Gateway.rebuildRows_applied hkeep] at h
        exact (Option.ite_none_left_eq_some.1 ((KeyMap.get_removeAll ..).symm.trans h)).2
      · rwa [Gateway.rebuildRows_kept hkeep] at h
    by_cases hmem : name ∈ (newClients rows).map Prod.fst
    · obtain ⟨client', hentry, hget'⟩ := KeyMap.get_insertAll_of_mem (m := s.gateway.providers) hmem
      obtain rfl : client' = client := Option.some.inj (hget'.symm.trans hget)
      obtain ⟨row, hrow, heq⟩ := List.mem_map.1 hentry
      obtain ⟨hid, hclient⟩ := Prod.mk.inj heq
      obtain ⟨-, hmodel, -, -, hendpoint, -⟩ := mem_buildRows hrow
      exact .inr ⟨models, endpoints, onEmpty, List.mem_cons_self, row, hrow, hmodel, hendpoint,
        hid, hclient⟩
    · exact .inl ((KeyMap.get_insertAll_of_notMem hmem).symm.trans hget)
  · left
    rwa [step, show s.gateway.reloadConfig regexNew config =
      s.gateway.applyAndRecord regexNew config none from rfl, Gateway.providers_applyAndRecord] at h
  · left
    rwa [step, Gateway.providers_rollbackConfig] at h

/-- A gateway that started without clients has only those of rows. -/
theorem fromRow_of_foldl {ops : List DispatchOp} {name : String} {client : ProviderClient}
    (hstart : ∀ name, s.gateway.providers.get name = none)
    (h : (ops.foldl (step regexNew) s).gateway.providers.get name = some client) :
    FromRow ops name client := by
  induction ops using List.reverseRecOn with
  | nil =>
    rw [List.foldl_nil, hstart] at h
    cases h
  | append_singleton ops op ih =>
    rw [List.foldl_concat] at h
    rcases get_step_cases h with hbefore | hrow
    · exact (ih hbefore).mono (List.subset_append_left _ _)
    · exact hrow.mono (List.subset_append_right _ _)

/-- What is sent is sent through the client registered for its target. -/
theorem exists_client_of_sends {g : Gateway} {call : DispatchCall} {sent : Sent}
    (h : call.Sends g vars isMethod sent) :
    ∃ client, g.providers.get (routingKey sent.1) = some client ∧ (call.candidates.isSome →
      sent.2.baseUrl = client.baseUrl ∨
        sent.2.baseUrl = Text.trimEndMatches '/' client.baseUrl) := by
  rcases call with ⟨model, ordered⟩ | ⟨model, ordered⟩ | allowed | ⟨method, path⟩
  · obtain ⟨target, -, client, key, hres, rfl⟩ := Gateway.exists_mem_withFailover_iff.1 h
    exact ⟨client, hres.client, fun _ ↦ .inl (ProviderClient.complete_baseUrl ..)⟩
  · obtain ⟨target, -, client, key, hres, rfl⟩ := Gateway.exists_mem_withFailover_iff.1 h
    exact ⟨client, hres.client, fun _ ↦ .inl (ProviderClient.completeStream_baseUrl ..)⟩
  · obtain ⟨target, -, client, key, hres, -, rfl⟩ := Gateway.exists_mem_embed_iff.1 h
    exact ⟨client, hres.client, fun _ ↦ .inr rfl⟩
  · obtain ⟨-, target, -, client, key, hres, rfl⟩ := Gateway.proxy_eq_ok_iff.1 h
    exact ⟨client, hres.client, fun hcandidates ↦ by cases hcandidates⟩

/-- **Strict routing comes from rows.** A process that asks for the database alone and starts has
reached one, and whatever is configured afterwards, each request it sends goes through the client of
an enabled row that some rebuild read; but for a proxied one it goes to that row's endpoint. -/
theorem strict_routes_rows {connect : String → Bool} {source : ProviderSource} {config : Config}
    {ops : List DispatchOp} {call : DispatchCall} {sent : Sent}
    (hdb : ProviderSource.fromEnv vars = .ok .db)
    (hstart : startSource vars connect = some source)
    (hsends : call.Sends (ops.foldl (step regexNew) (boot regexNew vars source config)).gateway vars
      isMethod sent) :
    (∃ url ∈ vars "DATABASE_URL", connect url) ∧
      ∃ client, FromRow ops (routingKey sent.1) client ∧ (call.candidates.isSome →
        sent.2.baseUrl = client.baseUrl ∨
          sent.2.baseUrl = Text.trimEndMatches '/' client.baseUrl) := by
  obtain ⟨rfl, hconnected⟩ := connected_of_startSource hdb hstart
  obtain ⟨client, hclient, hbase⟩ := exists_client_of_sends hsends
  exact ⟨hconnected, client, fromRow_of_foldl (fun _ ↦ rfl) hclient, hbase⟩

/-- An environment that asks for the database alone. -/
def strictVars (name : String) : Option String :=
  if name == "HIMADRI_PROVIDER_SOURCE" then some " Db "
  else if name == "DATABASE_URL" then some "sqlite:gateway.db"
  else none

/-- The target of the Groq endpoint. -/
def groqTarget : Target := ⟨some "ep-1", "groq", 1, some ["gpt"], none, none⟩

theorem strict_routes_rows_groq : ∃ sent : Sent,
    sent.2.url = "https://api.groq.com/openai/v1/chat/completions" ∧
      (∃ url ∈ strictVars "DATABASE_URL", (fun _ ↦ true) url) ∧
        ∃ client, FromRow [groq] "ep-1" client ∧ (sent.2.baseUrl = client.baseUrl ∨
          sent.2.baseUrl = Text.trimEndMatches '/' client.baseUrl) := by
  let s := [groq].foldl (step fun _ ↦ none) (boot (fun _ ↦ none) strictVars .db .default)
  have hresolves : s.gateway.Resolves strictVars groqTarget (.ofPreset "groq" .groq none) "gsk-1" :=
    ⟨by decide, by decide⟩
  have hsends : (DispatchCall.route "gpt" [groqTarget]).Sends s.gateway strictVars (fun _ ↦ true)
      (groqTarget, (ProviderClient.ofPreset "groq" .groq none).complete "gpt" "gsk-1") :=
    Gateway.exists_mem_withFailover_iff.2
      ⟨groqTarget, List.mem_cons_self, _, _, hresolves, rfl⟩
  have hstart : startSource strictVars (fun _ ↦ true) = some .db := by decide
  obtain ⟨hconnected, client, hrow, hbase⟩ := strict_routes_rows (by decide) hstart hsends
  exact ⟨_, by decide, hconnected, client, hrow, hbase rfl⟩

end DispatchRun

end Himadri
