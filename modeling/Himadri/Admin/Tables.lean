import Mathlib.Data.Rat.Defs

/-!
# The rows the admin API keeps

`Model` and `ModelEndpoint` of `himadri-admin`. The display name and the timestamps of a row reach
no routing decision and are left out.
-/

namespace Himadri

/-- `Model`. -/
structure Model where
  id : String
  name : String
  enabled : Bool
  deriving DecidableEq

/-- `ModelEndpoint`, with its key decrypted as the store hands it out. -/
structure ModelEndpoint where
  id : String
  modelId : String
  providerType : String
  baseUrl : Option String
  apiKey : Option String
  weight : ℚ
  enabled : Bool
  deriving DecidableEq

namespace ModelEndpoint

/-- The row's key, where it stores a non-empty one. -/
def storedKey (endpoint : ModelEndpoint) : Option String := endpoint.apiKey.filter (!·.isEmpty)

theorem ne_empty_of_storedKey (endpoint : ModelEndpoint) {key : String}
    (h : endpoint.storedKey = some key) : key ≠ "" := by
  rintro rfl
  have hkept := (Option.filter_eq_some_iff.1 h).2
  cases hkept

end ModelEndpoint

end Himadri
