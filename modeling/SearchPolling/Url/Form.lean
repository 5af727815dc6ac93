import SearchPolling.Url.Percent

/-!
# Forms

A query string may be a list of names with values, separated by ampersands.  In names and
values a plus sign stands for a space, and a percent sign with two hexadecimal digits
for a byte; bytes that are not UTF-8 become U+FFFD.
-/

namespace SearchPolling
namespace Url
namespace Form

/-- The text that encoded characters stand for. -/
def decode (cs : List Char) : String :=
  Text.ofUtf8Lossy (Percent.decode (cs.map fun c => if c = '+' then ' ' else c))

/-- A name and its value, which is empty without an equals sign. -/
def binding (cs : List Char) : String × String :=
  (decode (cs.takeWhile (· ≠ '=')), decode ((cs.dropWhile (· ≠ '=')).drop 1))

/-- The names and values of a query string. -/
def bindings (cs : List Char) : List (String × String) :=
  ((cs.splitOn '&').filter fun part => !part.isEmpty).map binding

end Form
end Url
end SearchPolling
