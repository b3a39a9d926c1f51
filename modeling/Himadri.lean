import Himadri.Core.Duration
import Himadri.Core.KeyMap
import Himadri.Core.Groups
import Himadri.Core.Lists
import Himadri.Core.ExpiringMap
import Himadri.Core.Text
import Himadri.Core.Decimal
import Himadri.Core.Chrono
import Himadri.Core.Base64
import Himadri.Core.Utf8
import Himadri.Core.Lines
import Himadri.Core.Paging
import Himadri.Core.IpAddr
import Himadri.Core.NetGuard
import Himadri.Core.Url
import Himadri.Core.UrlLiterals
import Himadri.Core.Serde
import Himadri.Core.Types
import Himadri.Core.Config
import Himadri.Core.Request
import Himadri.Core.Json
import Himadri.Core.Alike
import Himadri.Core.ReadsBack
import Himadri.Core.RequestJson
import Himadri.Core.ResponseJson
import Himadri.Core.JsonSame
import Himadri.Core.Glob
import Himadri.Core.Patterns
import Himadri.Core.Rbac
import Himadri.Core.RbacDecisions
import Himadri.Core.Scope
import Himadri.Provider.Error
import Himadri.Provider.Sse
import Himadri.Provider.Anthropic
import Himadri.Provider.Gemini
import Himadri.Provider.Transcripts
import Himadri.Provider.GeminiTranscripts
import Himadri.Provider.TokenCounts
import Himadri.Provider.Translation
import Himadri.Provider.Compatible
import Himadri.Provider.Client
import Himadri.Provider.Registry
import Himadri.Admin.Tables
import Himadri.Admin.Usage
import Himadri.RateLimit.Limiter
import Himadri.Transition.System
import Himadri.Transition.Tasks
import Himadri.RateLimit.TokenBucket
import Himadri.RateLimit.Polling
import Himadri.RateLimit.Sharded
import Himadri.RateLimit.Checks
import Himadri.CircuitBreaker.Breaker
import Himadri.CircuitBreaker.Safety
import Himadri.CircuitBreaker.Tickets
import Himadri.CircuitBreaker.Budget
import Himadri.Plugins.FixedWindow
import Himadri.Plugins.LimiterStore
import Himadri.Transition.GetOrCreate
import Himadri.Provider.HttpClient
import Himadri.Provider.Exchange
import Himadri.Transition.Postings
import Himadri.Transition.Copies
import Himadri.Gateway.Strategy
import Himadri.Gateway.State
import Himadri.Gateway.Failover
import Himadri.Gateway.Recovery
import Himadri.Gateway.Config
import Himadri.Gateway.ConfigRuns
import Himadri.Gateway.Rebuild
import Himadri.Gateway.Registrations
import Himadri.Gateway.Convergence
import Himadri.Gateway.RebuildSteps
import Himadri.Gateway.Credentials
import Himadri.Transition.Locking
import Himadri.Gateway.Locks
import Himadri.Transition.Sweep
import Himadri.Gateway.Startup
import Himadri.Gateway.Dispatch
import Himadri.Gateway.ProviderSource
import Himadri.Plugins.Pipeline
import Himadri.Plugins.RateLimit
import Himadri.Plugins.Budget
import Himadri.Plugins.BudgetRuns
import Himadri.Plugins.Spending
import Himadri.Plugins.Cache
import Himadri.Plugins.CacheText
import Himadri.Plugins.Pii
import Himadri.Plugins.PiiResponse
import Himadri.Plugins.PiiRequest
import Himadri.Plugins.PiiEngine
import Himadri.Plugins.PiiScopes
import Himadri.Gateway.Policy
import Himadri.Gateway.ScopeRules
import Himadri.Gateway.RateLimits
import Himadri.Gateway.Selection
import Himadri.Gateway.FailoverOrder
import Himadri.Gateway.WeightedChoice
import Himadri.Gateway.LatencyRuns
import Himadri.Gateway.Audit
import Himadri.Observability.Redact
import Himadri.Observability.AuditFiles
import Himadri.Gateway.Route
import Himadri.Gateway.ResponseGuardrails
import Himadri.Gateway.ChoiceRedaction
import Himadri.Gateway.Stream
import Himadri.Gateway.Record
import Himadri.Gateway.Wiring
import Himadri.Gateway.Catalog
import Himadri.Gateway.Embeddings
import Himadri.Gateway.FailoverLoop
import Himadri.Gateway.Statuses
import Himadri.Gateway.CacheRuns
import Himadri.Admin.RequestLog
import Himadri.Gateway.Accounting
import Himadri.Gateway.Books
import Himadri.Gateway.Reapply
import Himadri.Auth.Jwt
import Himadri.Gateway.ClaimedRate
import Himadri.Auth.Credentials
import Himadri.Auth.Mechanisms
import Himadri.Admin.KeyStore
import Himadri.Admin.KeyStoreRuns
import Himadri.Transition.Columns
import Himadri.Admin.RowUpdates
import Himadri.Admin.Error
import Himadri.Admin.KeyBackends
import Himadri.Admin.KeyTables
import Himadri.Admin.KeyParity
import Himadri.Admin.KeyLegacy
import Himadri.Admin.Crypto
import Himadri.Admin.ModelTables
import Himadri.Admin.EndpointKeys
import Himadri.Admin.UpdateBodies
import Himadri.Admin.ModelDeletes
import Himadri.Admin.LogParity
import Himadri.Admin.UrlGuard
import Himadri.Server.CombinedAuth
import Himadri.Server.KeyRotation
import Himadri.Server.Metrics
import Himadri.Server.ConfigJson
import Himadri.Server.ConfigRoutes
import Himadri.Server.EndpointRoutes
import Himadri.Server.AdminAccess
import Himadri.Server.RemoteIp
import Himadri.Server.Passthrough
import Himadri.Server.Streaming
import Himadri.Server.ErrorResponses
import Himadri.Server.UpstreamFailures
import Himadri.Server.Relay
import Himadri.Server.RelayedStreams
import Himadri.Server.Completions
