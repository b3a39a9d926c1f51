import Himadri.Core.Request

/-!
# The key of the response cache

`ResponseCachePlugin::cache_key` hashes a document of everything that affects a completion. The
hash, SHA-256 of the document's bytes in hexadecimal, is an argument.
-/

namespace Himadri

/-- The document `cache_key` hashes: the scope, and every field of the request but `stream`. -/
structure CacheDocument where
  orgId : Option String
  teamId : Option String
  model : String
  messages : List Message
  temperature : Option ℚ
  topP : Option ℚ
  maxTokens : Option ℕ
  stop : Option (List String)
  presencePenalty : Option ℚ
  frequencyPenalty : Option ℚ
  tools : Option (List Tool)
  toolChoice : Option Json
  user : Option String
  extra : KeyMap String Json

/-- The `canonical` document of `cache_key`. -/
def cacheDocument (request : ChatCompletionRequest) (orgId teamId : Option String) :
    CacheDocument where
  orgId
  teamId
  model := request.model
  messages := request.messages
  temperature := request.temperature
  topP := request.topP
  maxTokens := request.maxTokens
  stop := request.stop
  presencePenalty := request.presencePenalty
  frequencyPenalty := request.frequencyPenalty
  tools := request.tools
  toolChoice := request.toolChoice
  user := request.user
  extra := request.extra

/-- `ResponseCachePlugin::cache_key`. -/
def cacheKey (digest : CacheDocument → String) (request : ChatCompletionRequest)
    (orgId teamId : Option String) : String :=
  digest (cacheDocument request orgId teamId)

end Himadri
