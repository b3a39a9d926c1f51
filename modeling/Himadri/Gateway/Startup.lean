import Himadri.Gateway.State
import Himadri.Provider.Registry

/-!
# The clients a gateway starts with

`build_gateway` of the binary, as far as routing goes: unless the provider source is the database
alone, `register_providers_from_env` registers a client for every provider the process environment
configures. `env` is `std::env::var(..).ok()`.
-/

namespace Himadri

/-- `ProviderSource`. -/
inductive ProviderSource
  /-- Environment and configuration route until the database has targets. -/
  | auto
  /-- The database alone. -/
  | db
  deriving DecidableEq

/-- `api_key_env_var`; the names it is called with are ASCII. -/
def apiKeyEnvVar (providerType : String) : String :=
  .ofList (providerType.toList.map Char.toUpper) ++ "_API_KEY"

example : presets.map (fun p ↦ apiKeyEnvVar p.1) =
    ["OPENAI_API_KEY", "OPENROUTER_API_KEY", "TOGETHER_API_KEY", "GROQ_API_KEY",
      "FIREWORKS_API_KEY", "DEEPINFRA_API_KEY", "CEREBRAS_API_KEY", "NOVITA_API_KEY"] := by decide

section Environment

variable (env : String → Option String)

/-- OpenAI, under its `OPENAI_BASE_URL`. -/
def envOpenAi : ProviderClient :=
  .compatible
    { OpenAiCompatibleConfig.openai with
      baseUrl := (env "OPENAI_BASE_URL").getD OpenAiCompatibleConfig.openai.baseUrl }

/-- The second OpenAI-compatible upstream. -/
def envOpenAiSecondary : Option ProviderClient :=
  (env "OPENAI_SECONDARY_BASE_URL").map fun baseUrl ↦
    .compatible
      { OpenAiCompatibleConfig.openai with
        name := "openai-secondary"
        displayName := "OpenAI Secondary"
        baseUrl := baseUrl }

/-- Azure, when its key, endpoint and deployment are all set. -/
def envAzure : Option ProviderClient :=
  match env "AZURE_OPENAI_API_KEY", env "AZURE_OPENAI_ENDPOINT", env "AZURE_OPENAI_DEPLOYMENT" with
  | some _, some baseUrl, some deployment =>
    some (.azure baseUrl deployment ((env "AZURE_OPENAI_API_VERSION").getD "2024-10-21"))
  | _, _, _ => none

/-- The other preset vendors, each when its key is set. -/
def envPresets : List ProviderClient :=
  presets.filterMap fun p ↦
    if p.1 == "openai" || (env (apiKeyEnvVar p.1)).isNone then none else some (.compatible p.2)

/-- The clients `register_providers_from_env` registers, in its order. -/
def envProviders : List ProviderClient :=
  [envOpenAi env] ++ (envOpenAiSecondary env).toList ++ [.newAnthropic none, .newGemini none] ++
    (envAzure env).toList ++ envPresets env

/-- The environment's clients by the name they are registered under. -/
def startupClients : ProviderSource → KeyMap String ProviderClient
  | .auto => KeyMap.empty.insertAll ((envProviders env).map fun client ↦ (client.name, client))
  | .db => .empty

/-- `register_providers_from_env`. -/
def registerProvidersFromEnv (g : Gateway) : Gateway :=
  (envProviders env).foldl Gateway.registerProvider g

/-- `build_gateway`. -/
def buildGateway (regexNew : String → Option Regex) (source : ProviderSource) (config : Config) :
    Gateway :=
  match source with
  | .auto => registerProvidersFromEnv env (.new regexNew config)
  | .db => .new regexNew config

variable {env}

theorem foldl_registerProvider (g : Gateway) (clients : List ProviderClient) :
    clients.foldl Gateway.registerProvider g =
      { g with
        providers := g.providers.insertAll (clients.map fun client ↦ (client.name, client)) } := by
  induction clients generalizing g with
  | nil => rfl
  | cons client clients ih => exact ih (g.registerProvider client)

/-- A gateway starts with the environment's clients. -/
theorem buildGateway_eq (regexNew : String → Option Regex) (source : ProviderSource)
    (config : Config) :
    buildGateway env regexNew source config =
      { Gateway.new regexNew config with providers := startupClients env source } := by
  cases source with
  | auto => exact foldl_registerProvider _ _
  | db => rfl

/-- A client of the environment is registered under its own name. -/
theorem name_of_get_startupClients {source : ProviderSource} {name : String}
    {client : ProviderClient}
    (h : (startupClients env source).get name = some client) : client.name = name := by
  cases source with
  | auto =>
    have hmem :
        name ∈ ((envProviders env).map fun client ↦ (client.name, client)).map Prod.fst := by
      by_contra hno
      rw [startupClients, KeyMap.get_insertAll_of_notMem hno] at h
      cases h
    obtain ⟨client', hentry, hget⟩ :=
      KeyMap.get_insertAll_of_mem (m := (.empty : KeyMap String ProviderClient)) hmem
    obtain rfl : client' = client := Option.some.inj (hget.symm.trans h)
    obtain ⟨client'', -, heq⟩ := List.mem_map.1 hentry
    obtain ⟨rfl, rfl⟩ := Prod.mk.inj heq
    rfl
  | db => cases h

end Environment

end Himadri
