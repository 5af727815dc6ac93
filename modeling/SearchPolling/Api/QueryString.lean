import SearchPolling.Json.Fault
import SearchPolling.Url.Form

/-!
# Query strings

What the parameters in a query string mean.
-/

namespace SearchPolling
namespace Api
namespace QueryString

/-- The truth value that a text spells. -/
def bool? : String → Option Bool
  | "true" => some true
  | "false" => some false
  | _ => none

/-- The truth value under a name, if there is one; other names are ignored.  The text of
an error says why there is none. -/
def flag (name : String) (found : Option Bool) :
    List (String × String) → Except String (Option Bool)
  | [] => .ok found
  | (n, value) :: rest =>
    if n = name then
      match found, bool? value with
      | some _, _ => .error (Json.Mismatch.duplicateField name).message
      | none, some b => flag name (some b) rest
      | none, none => .error (name ++ ": provided string was not `true` or `false`")
    else flag name found rest

end QueryString
end Api
end SearchPolling
