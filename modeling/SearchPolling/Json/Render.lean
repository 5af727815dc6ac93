import SearchPolling.Decimal.Layout
import SearchPolling.Json.Value

/-!
# Writing JSON

The compact text of a value: no blanks, members in their order, and in strings an
escape only for the quote, the backslash and the control characters below U+0020.
-/

namespace SearchPolling
namespace Json

/-- Binary64 numbers have the fewest digits that read back, always a point or an
exponent, and an exponent from 1e16 up and below 1e-5. -/
def realLayout : Decimal.Layout :=
  { tie := .toEven, positional := some (-5, 15), showPoint := true }

/-- The hexadecimal digit of a number below sixteen. -/
def hexDigit (n : Nat) : Char :=
  Nat.digitChar n

/-- A character inside a string. -/
def escapeChar (c : Char) : List Char :=
  if c = '"' then ['\\', '"']
  else if c = '\\' then ['\\', '\\']
  else if c = '\x08' then ['\\', 'b']
  else if c = '\x0c' then ['\\', 'f']
  else if c = '\n' then ['\\', 'n']
  else if c = '\r' then ['\\', 'r']
  else if c = '\t' then ['\\', 't']
  else if c.toNat < 0x20 then
    ['\\', 'u', '0', '0', hexDigit (c.toNat / 16), hexDigit (c.toNat % 16)]
  else [c]

/-- A text as a string literal. -/
def stringChars (s : String) : List Char :=
  '"' :: (s.toList.flatMap escapeChar ++ ['"'])

/-- A number literal; a value that is not finite has none and is written as null. -/
def Number.chars : Number → List Char
  | .natural n => Decimal.natDigits n.toNat
  | .negative n => Decimal.intDigits n.toInt
  | .real x => if x.isFinite then realLayout.finite x else "null".toList

mutual

def chars : Json → List Char
  | .null => "null".toList
  | .bool true => "true".toList
  | .bool false => "false".toList
  | .number n => n.chars
  | .string s => stringChars s
  | .list [] => ['[', ']']
  | .list (x :: xs) => '[' :: (x.chars ++ itemChars xs)
  | .object [] => ['\x7b', '\x7d']
  | .object ((k, v) :: rest) =>
    '\x7b' :: (stringChars k ++ ':' :: (v.chars ++ memberChars rest))

/-- The items of a list that follow its first, and the closing bracket. -/
def itemChars : List Json → List Char
  | [] => [']']
  | x :: xs => ',' :: (x.chars ++ itemChars xs)

/-- The members of an object that follow its first, and the closing brace. -/
def memberChars : List (String × Json) → List Char
  | [] => ['\x7d']
  | (k, v) :: rest => ',' :: (stringChars k ++ ':' :: (v.chars ++ memberChars rest))

end

/-- The compact text of a value. -/
def render (j : Json) : String :=
  String.ofList j.chars

end Json
end SearchPolling
