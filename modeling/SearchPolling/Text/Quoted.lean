import SearchPolling.Text.Printable

/-!
# Quoted texts

A text quoted for a message: between double quotes, with a backslash before a
quote or a backslash, short names for the common controls, and the code point in
hexadecimal for every other character that is not shown as it is.
-/

namespace SearchPolling
namespace Text

/-- One character inside a quoted text. -/
def quoteChar (c : Char) : List Char :=
  if c = '"' then ['\\', '"']
  else if c = '\\' then ['\\', '\\']
  else if c = '\n' then ['\\', 'n']
  else if c = '\r' then ['\\', 'r']
  else if c = '\t' then ['\\', 't']
  else if c = '\x00' then ['\\', '0']
  else if isSpelledOut c then
    '\\' :: 'u' :: '\x7b' :: (Nat.toDigits 16 c.toNat ++ ['\x7d'])
  else [c]

/-- A text between double quotes, each character as `quoteChar` shows it. -/
def quoted (s : String) : String :=
  String.ofList ('"' :: (s.toList.flatMap quoteChar ++ ['"']))

end Text
end SearchPolling
