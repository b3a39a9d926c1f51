import Himadri.Core.Json

/-!
# Errors of the admin API

`AdminError` of `himadri-admin`, one variant for each status the HTTP layer answers with, and what
it says of a call that it went through.
-/

namespace Himadri

/-- `AdminError`; what the database says of its failure is left out. -/
inductive AdminError
  | notFound
  | validation (reason : String)
  | conflict (reason : String)
  | store
  deriving DecidableEq

end Himadri
