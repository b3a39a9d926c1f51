import Himadri.Core.Duration
import Himadri.Transition.GetOrCreate

/-!
# HTTP clients

The pool of `himadri-provider`'s `http_client`: a client for each provider, tuned for it and built
on the first demand, and one that all streams share. Clients of a custom configuration live in the
same map under a name of their own.

However many calls ask for clients at once, the calls of a provider are given one, the one that is
tuned for it (`clients_tuned`), and no call hangs on an upstream that has gone silent.
-/

namespace Himadri

/-- `TransportConfig`. -/
structure TransportConfig where
  maxIdlePerHost : ℕ
  poolIdleTimeout : Duration
  connectTimeout : Duration
  /-- The deadline of a whole request; zero is none. -/
  requestTimeout : Duration
  /-- The longest gap between two reads; zero is none. -/
  readTimeout : Duration
  tcpKeepalive : Duration
  tcpNodelay : Bool
  deriving DecidableEq

namespace TransportConfig

/-- `TransportConfig::default`. -/
def default : TransportConfig where
  maxIdlePerHost := 100
  poolIdleTimeout := .fromSecs 90
  connectTimeout := .fromSecs 10
  requestTimeout := .fromSecs 600
  readTimeout := .fromSecs 120
  tcpKeepalive := .fromSecs 60
  tcpNodelay := true

/-- `TransportConfig::openai`. -/
def openai : TransportConfig := { default with maxIdlePerHost := 200 }

/-- `TransportConfig::anthropic`. -/
def anthropic : TransportConfig :=
  { default with maxIdlePerHost := 150, readTimeout := .fromSecs 180 }

/-- `TransportConfig::cloud_provider`. -/
def cloudProvider : TransportConfig :=
  { default with connectTimeout := .fromSecs 15, readTimeout := .fromSecs 180 }

/-- `TransportConfig::streaming`. -/
def streaming : TransportConfig :=
  { default with
    poolIdleTimeout := .fromSecs 300
    requestTimeout := ⟨0⟩
    readTimeout := .fromSecs 300 }

/-- `TransportConfig::local`. -/
def localServer : TransportConfig :=
  { default with
    maxIdlePerHost := 20
    poolIdleTimeout := .fromSecs 30
    connectTimeout := .fromSecs 5
    tcpKeepalive := .fromSecs 30 }

/-- The configuration `build_provider_client` picks. -/
def ofProvider : String → TransportConfig
  | "openai" | "azure-openai" | "azure" => openai
  | "anthropic" => anthropic
  | "bedrock" | "vertex" => cloudProvider
  | "ollama" => localServer
  | "openrouter" | "together" | "groq" | "fireworks" | "deepinfra" | "cerebras" | "novita" => openai
  | _ => default

end TransportConfig

/-- `reqwest::Client`, with what it was built with; an absent bound is none. -/
structure HttpClient where
  maxIdlePerHost : ℕ
  poolIdleTimeout : Duration
  connectTimeout : Duration
  timeout : Option Duration
  readTimeout : Option Duration
  tcpKeepalive : Duration
  tcpNodelay : Bool

/-- `build_client_from_config`. -/
def HttpClient.ofConfig (config : TransportConfig) : HttpClient where
  maxIdlePerHost := config.maxIdlePerHost
  poolIdleTimeout := config.poolIdleTimeout
  connectTimeout := config.connectTimeout
  timeout := if config.requestTimeout = ⟨0⟩ then none else some config.requestTimeout
  readTimeout := if config.readTimeout = ⟨0⟩ then none else some config.readTimeout
  tcpKeepalive := config.tcpKeepalive
  tcpNodelay := config.tcpNodelay

namespace ProviderHttpClient

/-- The name of a provider's custom client. -/
def customName (provider : String) : String := provider ++ ":custom"

/-- A call of `for_provider` or of `for_provider_with_config` asks for this name, and would build
this client. -/
def Asked (name : String) (client : HttpClient) : Prop :=
  client = .ofConfig (.ofProvider name) ∨
    ∃ provider config, name = customName provider ∧ client = .ofConfig config

/-- `shared_streaming`. -/
def sharedStreaming : HttpClient := .ofConfig .streaming

/-- A client that gives up on a silent upstream: at the latest after so long without a byte. -/
def GivesUpWithin (client : HttpClient) (bound : Duration) : Prop :=
  ∃ gap ∈ client.readTimeout, gap.nanos ≤ bound.nanos

/-- No provider's client waits longer than three minutes for a byte or than ten for the whole. -/
theorem ofProvider_bounded (provider : String) :
    GivesUpWithin (.ofConfig (.ofProvider provider)) (.fromSecs 180) ∧
      (HttpClient.ofConfig (.ofProvider provider)).timeout = some (.fromSecs 600) := by
  have hsix : TransportConfig.ofProvider provider ∈
      [TransportConfig.openai, .anthropic, .cloudProvider, .localServer, .default] := by
    rw [TransportConfig.ofProvider.eq_def]
    split <;> decide
  revert hsix
  generalize TransportConfig.ofProvider provider = config
  intro hsix
  simp only [List.mem_cons, List.not_mem_nil, or_false] at hsix
  rcases hsix with rfl | rfl | rfl | rfl | rfl <;> exact ⟨⟨_, rfl, by decide⟩, rfl⟩

/-- A stream may go on for any time, but not without a byte for five minutes. -/
theorem sharedStreaming_bounded :
    GivesUpWithin sharedStreaming (.fromSecs 300) ∧ sharedStreaming.timeout = none :=
  ⟨⟨_, rfl, le_refl _⟩, rfl⟩

/-- **Clients are tuned for their providers.** However the calls fall together, those of a provider
are given one client, which no other provider's are, and unless the provider has the name of a
custom client it is the one `build_provider_client` builds for it. -/
theorem clients_tuned {s : GetOrCreate.Run String HttpClient}
    (hs : (GetOrCreate.Run.runs.guard (GetOrCreate.Run.Proposes Asked)).Reachable s)
    {provider : String} {a : ℕ} (h : (provider, a) ∈ s.answers) :
    (∀ provider' a', (provider', a') ∈ s.answers → (a = a' ↔ provider = provider')) ∧
      ((∀ other, provider ≠ customName other) → ∃ client,
        s.cells[a]? = some (provider, client) ∧ client = .ofConfig (.ofProvider provider) ∧
          GivesUpWithin client (.fromSecs 180) ∧ client.timeout = some (.fromSecs 600)) := by
  refine ⟨fun provider' a' h' ↦ GetOrCreate.Run.answers_iff hs.of_guard h h', fun hname ↦ ?_⟩
  obtain ⟨client, hcell⟩ := GetOrCreate.Run.cell_of_answer hs.of_guard h
  rcases (GetOrCreate.Run.proposed hs).1 _ (List.mem_of_getElem? hcell) with
    htuned | ⟨other, config, heq, -⟩
  · obtain rfl : client = .ofConfig (.ofProvider provider) := htuned
    exact ⟨_, hcell, rfl, ofProvider_bounded provider⟩
  · exact absurd heq (hname other)

/-- Two calls of one provider find no client at the same time; the second is given what the first
has built. -/
theorem clients_tuned_race : ∃ s : GetOrCreate.Run String HttpClient,
    s.answers = [("anthropic", 0), ("anthropic", 0)] ∧ s.cells.length = 1 ∧
      (∀ provider' a', (provider', a') ∈ s.answers → (0 = a' ↔ "anthropic" = provider')) ∧
        ∃ client, s.cells[0]? = some ("anthropic", client) ∧
          client = .ofConfig .anthropic ∧ GivesUpWithin client (.fromSecs 180) ∧
            client.timeout = some (.fromSecs 600) := by
  let client := HttpClient.ofConfig .anthropic
  have hasked : Asked "anthropic" client := .inl rfl
  let T := (GetOrCreate.Run.runs (κ := String) (α := HttpClient)).guard
    (GetOrCreate.Run.Proposes Asked)
  have hstart : T.Reachable .start := .init rfl
  have hone : T.Reachable ⟨[], .empty, [("anthropic", client)], []⟩ :=
    hstart.step (l := .look "anthropic" client) ⟨rfl, hasked⟩
  have htwo : T.Reachable ⟨[], .empty, [("anthropic", client), ("anthropic", client)], []⟩ :=
    hone.step (l := .look "anthropic" client) ⟨rfl, hasked⟩
  have hbuilt : T.Reachable ⟨[("anthropic", client)], KeyMap.empty.insert "anthropic" 0,
      [("anthropic", client)], [("anthropic", 0)]⟩ := htwo.step (l := .enter 0) ⟨rfl, trivial⟩
  have hshared : T.Reachable ⟨[("anthropic", client)], KeyMap.empty.insert "anthropic" 0, [],
      [("anthropic", 0), ("anthropic", 0)]⟩ := hbuilt.step (l := .enter 0) ⟨rfl, trivial⟩
  have hname (other : String) : "anthropic" ≠ customName other := by
    intro heq
    have hlast := congrArg (fun name ↦ name.toList.getLast?) heq
    simp [customName] at hlast
  obtain ⟨hshares, htuned⟩ := clients_tuned hshared List.mem_cons_self
  exact ⟨_, rfl, rfl, hshares, htuned hname⟩

end ProviderHttpClient

end Himadri
