import Himadri.Core.KeyMap
import Himadri.Core.Text
import Himadri.Provider.Client

/-!
# The registry the gateway is built with

`MapProviderRegistry`, the vendor presets, and `build_provider_registry`, which registers Anthropic,
Gemini and the OpenAI-compatible presets.
-/

namespace Himadri

namespace OpenAiCompatibleConfig

/-- `OpenAiCompatibleConfig::preset`. -/
def preset (name displayName baseUrl : String) (extraHeaders : List (String × String))
    (models : List String) : OpenAiCompatibleConfig where
  name := name
  displayName := displayName
  baseUrl := baseUrl
  authMethod := .bearer
  chatCompletionsPath := "/chat/completions"
  extraHeaders := extraHeaders
  models := models

/-- `OpenAiCompatibleConfig::openai`. -/
def openai : OpenAiCompatibleConfig :=
  preset "openai" "OpenAI" "https://api.openai.com/v1" []
    ["gpt-4", "gpt-4-turbo", "gpt-4o", "gpt-4o-mini", "gpt-3.5-turbo", "o1", "o1-mini", "o1-pro"]

/-- `OpenAiCompatibleConfig::openrouter`. -/
def openrouter : OpenAiCompatibleConfig :=
  preset "openrouter" "OpenRouter" "https://openrouter.ai/api/v1"
    [("HTTP-Referer", "https://github.com/himadri"), ("X-Title", "himadri")]
    ["openrouter/auto", "openai/gpt-4o", "anthropic/claude-3.5-sonnet", "google/gemini-2.0-flash"]

/-- `OpenAiCompatibleConfig::together_ai`. -/
def togetherAi : OpenAiCompatibleConfig :=
  preset "together" "Together AI" "https://api.together.xyz/v1" []
    ["meta-llama/Llama-3-70b-chat-hf", "meta-llama/Llama-3-8b-chat-hf",
      "mistralai/Mixtral-8x7B-Instruct-v0.1"]

/-- `OpenAiCompatibleConfig::groq`. -/
def groq : OpenAiCompatibleConfig :=
  preset "groq" "Groq" "https://api.groq.com/openai/v1" []
    ["llama3-70b-8192", "llama3-8b-8192", "mixtral-8x7b-32768", "gemma-7b-it"]

/-- `OpenAiCompatibleConfig::fireworks`. -/
def fireworks : OpenAiCompatibleConfig :=
  preset "fireworks" "Fireworks AI" "https://api.fireworks.ai/inference/v1" []
    ["accounts/fireworks/models/llama-v3p1-70b-instruct",
      "accounts/fireworks/models/mixtral-8x7b-instruct"]

/-- `OpenAiCompatibleConfig::deepinfra`. -/
def deepinfra : OpenAiCompatibleConfig :=
  preset "deepinfra" "DeepInfra" "https://api.deepinfra.com/v1/openai" []
    ["meta-llama/Meta-Llama-3-70B-Instruct", "mistralai/Mixtral-8x7B-Instruct-v0.1"]

/-- `OpenAiCompatibleConfig::cerebras`. -/
def cerebras : OpenAiCompatibleConfig :=
  preset "cerebras" "Cerebras" "https://api.cerebras.ai/v1" [] ["llama3.1-70b", "llama3.1-8b"]

/-- `OpenAiCompatibleConfig::novita`. -/
def novita : OpenAiCompatibleConfig :=
  preset "novita" "Novita AI" "https://api.novita.ai/v3/openai" []
    ["meta-llama/llama-3.1-70b-instruct", "meta-llama/llama-3.1-8b-instruct"]

end OpenAiCompatibleConfig

/-- `PRESETS`: the vendors with a built-in configuration, by provider type. -/
def presets : List (String × OpenAiCompatibleConfig) :=
  [("openai", .openai), ("openrouter", .openrouter), ("together", .togetherAi), ("groq", .groq),
    ("fireworks", .fireworks), ("deepinfra", .deepinfra), ("cerebras", .cerebras),
    ("novita", .novita)]

namespace ProviderClient

/-- `OpenAiCompatibleProvider::bearer`. -/
def bearer (name baseUrl : String) : ProviderClient :=
  .compatible
    { name := name
      displayName := name
      baseUrl := baseUrl
      authMethod := .bearer
      chatCompletionsPath := "/chat/completions"
      extraHeaders := []
      models := [] }

/-- `OpenAiCompatibleProvider::azure`. -/
def azure (baseUrl deployment apiVersion : String) : ProviderClient :=
  .compatible
    { name := "azure-openai"
      displayName := "Azure OpenAI"
      baseUrl := Text.trimEndMatches '/' baseUrl
      authMethod := .header "api-key"
      chatCompletionsPath :=
        "/openai/deployments/" ++ deployment ++ "/chat/completions?api-version=" ++ apiVersion
      extraHeaders := []
      models := [deployment] }

/-- `AnthropicProvider::new`. -/
def newAnthropic (baseUrl : Option String) : ProviderClient :=
  .anthropic (baseUrl.getD "https://api.anthropic.com/v1")

/-- `GeminiProvider::new`. -/
def newGemini (baseUrl : Option String) : ProviderClient :=
  .gemini (baseUrl.getD "https://generativelanguage.googleapis.com/v1beta")

/-- What `compatible::register` builds for a preset. -/
def ofPreset (name : String) (preset : OpenAiCompatibleConfig) (baseUrl : Option String) :
    ProviderClient :=
  .compatible { preset with name := name, baseUrl := baseUrl.getD preset.baseUrl }

end ProviderClient

/-- `ProviderBuilder`. -/
def ProviderBuilder := Option String → Except ProviderError ProviderClient

/-- `MapProviderRegistry`. -/
structure MapProviderRegistry where
  builders : KeyMap String ProviderBuilder

namespace MapProviderRegistry

/-- `MapProviderRegistry::new`. -/
def new : MapProviderRegistry := ⟨.empty⟩

variable (registry : MapProviderRegistry)

/-- `MapProviderRegistry::register`. -/
def register (providerType : String) (builder : ProviderBuilder) : MapProviderRegistry :=
  ⟨registry.builders.insert providerType builder⟩

/-- `anthropic::register`. -/
def registerAnthropic : MapProviderRegistry :=
  registry.register "anthropic" fun baseUrl ↦ .ok (.newAnthropic baseUrl)

/-- `gemini::register`. -/
def registerGemini : MapProviderRegistry :=
  registry.register "gemini" fun baseUrl ↦ .ok (.newGemini baseUrl)

/-- `compatible::register`. -/
def registerCompatible : MapProviderRegistry :=
  presets.foldl
    (fun registry p ↦ registry.register p.1 fun baseUrl ↦ .ok (.ofPreset p.1 p.2 baseUrl)) registry

/-- The base URL a builder receives: trimmed, and absent when blank. -/
def normalizeBaseUrl (baseUrl : Option String) : Option String :=
  (baseUrl.map Text.trim).filter (!·.isEmpty)

/-- `MapProviderRegistry::build`. -/
def build (providerType : String) (baseUrl : Option String) : Except ProviderError ProviderClient :=
  match registry.builders.get providerType with
  | some builder => builder (normalizeBaseUrl baseUrl)
  | none =>
    match normalizeBaseUrl baseUrl with
    | some baseUrl => .ok (.bearer providerType baseUrl)
    | none => .error (.missingBaseUrl providerType)

end MapProviderRegistry

/-- `build_provider_registry`. -/
def buildProviderRegistry : ProviderRegistry where
  build := MapProviderRegistry.new.registerAnthropic.registerGemini.registerCompatible.build

/-! ### What the registry builds -/

/-- A builder that names its clients after the provider type and sends to the base URL it gets. -/
def ProviderBuilder.Honest (builder : ProviderBuilder) (providerType : String) : Prop :=
  ∀ baseUrl client, builder baseUrl = .ok client →
    client.name = providerType ∧ ∀ url, baseUrl = some url → client.baseUrl = url

namespace MapProviderRegistry

/-- All of the registry's builders are honest. -/
def Honest (registry : MapProviderRegistry) : Prop :=
  ∀ providerType builder, registry.builders.get providerType = some builder →
    builder.Honest providerType

variable {registry : MapProviderRegistry}

/-- A property of all builders is kept when one more that has it is registered. -/
theorem forall_register {P : String → ProviderBuilder → Prop}
    (h : ∀ type builder, registry.builders.get type = some builder → P type builder)
    {providerType : String} {builder : ProviderBuilder} (hbuilder : P providerType builder) :
    ∀ type builder', (registry.register providerType builder).builders.get type = some builder' →
      P type builder' := by
  intro type builder' hget
  rcases eq_or_ne type providerType with rfl | hne
  · obtain rfl : builder = builder' := by
      rw [MapProviderRegistry.register, KeyMap.get_insert_self] at hget
      exact Option.some.inj hget
    exact hbuilder
  · rw [MapProviderRegistry.register, KeyMap.get_insert_of_ne hne] at hget
    exact h type builder' hget

theorem forall_registerCompatible {P : String → ProviderBuilder → Prop}
    (h : ∀ type builder, registry.builders.get type = some builder → P type builder)
    (hpresets : ∀ p ∈ presets, P p.1 fun baseUrl ↦ .ok (.ofPreset p.1 p.2 baseUrl)) :
    ∀ type builder, registry.registerCompatible.builders.get type = some builder →
      P type builder := by
  rw [MapProviderRegistry.registerCompatible]
  -- the loop keeps the property, whatever the presets are
  generalize presets = ps at hpresets
  induction ps generalizing registry with
  | nil => exact h
  | cons p ps ih =>
    exact ih (forall_register h (hpresets p List.mem_cons_self)) fun p' hp' ↦
      hpresets p' (List.mem_cons_of_mem p hp')

/-- What all vendors' builders have, the gateway's registry has of its builders. -/
theorem forall_builders {P : String → ProviderBuilder → Prop}
    (hanthropic : P "anthropic" fun baseUrl ↦ .ok (.newAnthropic baseUrl))
    (hgemini : P "gemini" fun baseUrl ↦ .ok (.newGemini baseUrl))
    (hpresets : ∀ p ∈ presets, P p.1 fun baseUrl ↦ .ok (.ofPreset p.1 p.2 baseUrl)) :
    ∀ type builder,
      new.registerAnthropic.registerGemini.registerCompatible.builders.get type = some builder →
        P type builder := by
  have hnew : ∀ type builder, new.builders.get type = some builder → P type builder :=
    fun _ _ hget ↦ by cases hget
  exact forall_registerCompatible (forall_register (forall_register hnew hanthropic) hgemini)
    hpresets

/-- What an honest registry builds is named after the provider type and sends to the base URL asked
for, or to the type's own where none is. -/
theorem Honest.build (h : registry.Honest) {providerType : String} {baseUrl : Option String}
    {client : ProviderClient} (hbuild : registry.build providerType baseUrl = .ok client) :
    client.name = providerType ∧
      match normalizeBaseUrl baseUrl with
      | some url => client.baseUrl = url
      | none => registry.build providerType none = .ok client := by
  rw [MapProviderRegistry.build] at hbuild
  cases hurl : normalizeBaseUrl baseUrl with
  | some url =>
    rw [hurl] at hbuild
    cases hget : registry.builders.get providerType with
    | some builder =>
      rw [hget] at hbuild
      obtain ⟨hname, hbase⟩ := h providerType builder hget _ _ hbuild
      exact ⟨hname, hbase url rfl⟩
    | none =>
      rw [hget] at hbuild
      obtain rfl := Except.ok.inj hbuild
      exact ⟨rfl, rfl⟩
  | none =>
    rw [hurl] at hbuild
    cases hget : registry.builders.get providerType with
    | some builder =>
      rw [hget] at hbuild
      refine ⟨(h providerType builder hget _ _ hbuild).1, ?_⟩
      show registry.build providerType none = .ok client
      rw [MapProviderRegistry.build, hget]
      exact hbuild
    | none =>
      rw [hget] at hbuild
      cases hbuild

end MapProviderRegistry

/-- The registry the gateway is built with is honest. -/
theorem honest_buildProviderRegistry :
    MapProviderRegistry.new.registerAnthropic.registerGemini.registerCompatible.Honest := by
  refine MapProviderRegistry.forall_builders (fun baseUrl client hclient ↦ ?_)
    (fun baseUrl client hclient ↦ ?_) (fun p _ baseUrl client hclient ↦ ?_)
  all_goals
    obtain rfl := Except.ok.inj hclient
    exact ⟨rfl, fun url hurl ↦ by rw [hurl]; rfl⟩

end Himadri
