import SearchPolling.Json.Lexeme
import SearchPolling.Text.Utf8

/-!
# Percent encoding

A character is encoded by its bytes in UTF-8, each as a percent sign and two upper-case
hexadecimal digits.  Which characters are encoded depends on the part of a URL in which
they stand; those beyond ASCII always are.
-/

namespace SearchPolling
namespace Url
namespace Percent

/-- The upper-case hexadecimal digit of a number below sixteen. -/
def hexDigit (n : Nat) : Char :=
  (Nat.digitChar n).toUpper

/-- A byte in encoded form. -/
def encodeByte (b : UInt8) : List Char :=
  ['%', hexDigit (b.toNat / 16), hexDigit (b.toNat % 16)]

/-- A character in encoded form. -/
def encodeChar (c : Char) : List Char :=
  (Text.utf8 (String.singleton c)).flatMap encodeByte

/-- Characters, those in a set in encoded form. -/
def encode (set : Char → Bool) (cs : List Char) : List Char :=
  cs.flatMap fun c => if set c then encodeChar c else [c]

/-- The bytes that characters stand for. -/
def decode : List Char → List UInt8
  | '%' :: a :: b :: rest =>
    match Json.hexValue? a, Json.hexValue? b with
    | some x, some y => (x * 16 + y).toUInt8 :: decode rest
    | _, _ => '%'.toNat.toUInt8 :: decode (a :: b :: rest)
  | c :: rest => Text.utf8 (String.singleton c) ++ decode rest
  | [] => []

/-- Controls, and all that is not ASCII. -/
def controls (c : Char) : Bool :=
  c.toNat < 0x20 || 0x7E < c.toNat

/-- What is encoded in a fragment. -/
def fragmentSet (c : Char) : Bool :=
  controls c || [' ', '"', '<', '>', '\x60'].contains c

/-- What is encoded in a query. -/
def querySet (c : Char) : Bool :=
  controls c || [' ', '"', '#', '<', '>'].contains c

/-- What is encoded in a query of one of the schemes that the web knows. -/
def specialQuerySet (c : Char) : Bool :=
  querySet c || c = '\''

/-- What is encoded in a path. -/
def pathSet (c : Char) : Bool :=
  fragmentSet c || ['#', '?', '\x7b', '\x7d'].contains c

/-- What is encoded in a user name or a password. -/
def userinfoSet (c : Char) : Bool :=
  pathSet c || ['/', ':', ';', '=', '@', '[', '\\', ']', '^', '|'].contains c

end Percent
end Url
end SearchPolling
