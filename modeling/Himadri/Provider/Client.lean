import Himadri.Core.Text
import Himadri.Provider.Error

/-!
# Provider clients and the registry that builds them

The gateway holds its clients as trait objects. What routing can tell of one is its name and the
base URL it sends to, so `ProviderClient` is the three implementations with their own data. Of a
request to an upstream the model keeps where it goes and the key it authenticates with. The registry
is injected into the gateway; here it is what it builds from a provider type and a base URL.
-/

namespace Himadri

/-- `AuthMethod`. -/
inductive AuthMethod
  | bearer
  | header (headerName : String)
  deriving DecidableEq

/-- `OpenAiCompatibleConfig`. -/
structure OpenAiCompatibleConfig where
  name : String
  displayName : String
  baseUrl : String
  authMethod : AuthMethod
  chatCompletionsPath : String
  extraHeaders : List (String × String)
  models : List String
  deriving DecidableEq

/-- The implementations of `Provider`. -/
inductive ProviderClient
  /-- `OpenAiCompatibleProvider`. -/
  | compatible (config : OpenAiCompatibleConfig)
  /-- `AnthropicProvider`. -/
  | anthropic (baseUrl : String)
  /-- `GeminiProvider`. -/
  | gemini (baseUrl : String)
  deriving DecidableEq

/-- A request to an upstream: the two parts its URL is put together from, and the API key its
authentication header is made of. -/
structure UpstreamRequest where
  baseUrl : String
  path : String
  key : String
  deriving DecidableEq

/-- The request's URL. -/
def UpstreamRequest.url (request : UpstreamRequest) : String := request.baseUrl ++ request.path

namespace ProviderClient

/-- `Provider::name`. -/
def name : ProviderClient → String
  | .compatible config => config.name
  | .anthropic _ => "anthropic"
  | .gemini _ => "gemini"

/-- The URL the client's requests start with. -/
def baseUrl : ProviderClient → String
  | .compatible config => config.baseUrl
  | .anthropic baseUrl => baseUrl
  | .gemini baseUrl => baseUrl

/-- `Provider::complete`, as far as the request it sends. -/
def complete (model key : String) : ProviderClient → UpstreamRequest
  | .compatible config => ⟨config.baseUrl, config.chatCompletionsPath, key⟩
  | .anthropic baseUrl => ⟨baseUrl, "/messages", key⟩
  | .gemini baseUrl => ⟨baseUrl, "/models/" ++ model ++ ":generateContent", key⟩

/-- `Provider::complete_stream`, as far as the request it sends. -/
def completeStream (model key : String) : ProviderClient → UpstreamRequest
  | .compatible config => ⟨config.baseUrl, config.chatCompletionsPath, key⟩
  | .anthropic baseUrl => ⟨baseUrl, "/messages", key⟩
  | .gemini baseUrl => ⟨baseUrl, "/models/" ++ model ++ ":streamGenerateContent?alt=sse", key⟩

/-- `Provider::embed`, as far as the request it sends; a client that does not override it sends
none. -/
def embed (client : ProviderClient) (key : String) : Except ProviderError UpstreamRequest :=
  match client with
  | .compatible config => .ok ⟨Text.trimEndMatches '/' config.baseUrl, "/embeddings", key⟩
  | _ => .error (.unsupported (client.name ++ " does not support embeddings"))

@[simp] theorem complete_baseUrl (model key : String) (client : ProviderClient) :
    (client.complete model key).baseUrl = client.baseUrl := by
  cases client <;> rfl

@[simp] theorem completeStream_baseUrl (model key : String) (client : ProviderClient) :
    (client.completeStream model key).baseUrl = client.baseUrl := by
  cases client <;> rfl

@[simp] theorem complete_key (model key : String) (client : ProviderClient) :
    (client.complete model key).key = key := by
  cases client <;> rfl

@[simp] theorem completeStream_key (model key : String) (client : ProviderClient) :
    (client.completeStream model key).key = key := by
  cases client <;> rfl

/-- The client overrides `Provider::embed`. -/
def offersEmbeddings : ProviderClient → Bool
  | .compatible _ => true
  | _ => false

theorem embed_eq_ok_iff {client : ProviderClient} {key : String} {request : UpstreamRequest} :
    client.embed key = .ok request ↔
      client.offersEmbeddings ∧
        request = ⟨Text.trimEndMatches '/' client.baseUrl, "/embeddings", key⟩ := by
  cases client with
  | compatible config =>
    rw [embed, Except.ok.injEq, eq_comm]
    exact (and_iff_right rfl).symm
  | anthropic baseUrl => exact ⟨fun h ↦ (by cases h), fun h ↦ (by cases h.1)⟩
  | gemini baseUrl => exact ⟨fun h ↦ (by cases h), fun h ↦ (by cases h.1)⟩

end ProviderClient

/-- `ProviderRegistry`, by its one required method. -/
structure ProviderRegistry where
  build : (providerType : String) → (baseUrl : Option String) → Except ProviderError ProviderClient

end Himadri
