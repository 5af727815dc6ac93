import SearchPolling.Decimal.Layout

/-!
# Search failures

Why a search gave no response.
-/

namespace SearchPolling
namespace Search

/-- Why a search gave no response. -/
inductive Failure where
  /-- The service could not be reached or broke off. -/
  | network (reason : String)
  /-- The service did not answer in time. -/
  | timeout
  /-- The service answered with a status that is no success. -/
  | status (code : Nat) (message : String)
  /-- The answer is no search response. -/
  | undecodable (reason : String)
  deriving DecidableEq, Repr

namespace Failure

def message : Failure → String
  | network reason => "Network error: " ++ reason
  | timeout => "Search backend timed out"
  | status code message =>
    "Search backend returned status " ++ String.ofList (Decimal.natDigits code) ++ ": " ++ message
  | undecodable reason => "Parse error: " ++ reason

end Failure
end Search
end SearchPolling
