import SearchPolling.Json.Render
import SearchPolling.Text.Quoted

/-!
# Why a text was refused

A fault is either a flaw of the text itself, which no type could accept, or a
mismatch between a value and the type that was asked for.  It carries the path to
the value at which it was met.
-/

namespace SearchPolling
namespace Json

/-- What the end of a text may cut off. -/
inductive Unfinished where
  | value
  | object
  | list
  | string
  deriving DecidableEq, Repr

/-- A flaw of a text. -/
inductive Flaw where
  | cutOff (what : Unfinished)
  | noValue
  | noWord
  | noColon
  | noItemSeparator
  | noMemberSeparator
  | keyNotString
  | trailingComma
  | trailingCharacters
  | badNumber
  | numberOutOfRange
  | badEscape
  | badCodePoint
  | loneSurrogate
  | unfinishedSurrogate
  | controlCharacter
  | tooDeep
  deriving DecidableEq, Repr

/-- What was found where a value of some type should stand. -/
inductive Found where
  | null
  | bool (b : Bool)
  | number (n : Number)
  | string (s : String)
  | list
  | object

/-- A mismatch between a value and a type. -/
inductive Mismatch where
  /-- The value is of another kind. -/
  | kind (found : Found) (expected : String)
  /-- The value is of the right kind and out of range. -/
  | range (found : Found) (expected : String)
  /-- A list has too few or too many items. -/
  | length (found : Nat) (expected : String)
  | unknownVariant (name : String) (variants : List String)
  | missingField (name : String)
  | duplicateField (name : String)
  /-- A text that does not have the form of what it should denote. -/
  | malformed (reason : String)

/-- The reason of a fault. -/
inductive Cause where
  | flaw (flaw : Flaw)
  | mismatch (mismatch : Mismatch)

/-- A step from a value into one of its parts. -/
inductive Segment where
  | index (i : Nat)
  | key (name : String)
  | variant (name : String)
  deriving DecidableEq, Repr

/-- A fault, with the path from the outermost value. -/
structure Fault where
  path : List Segment
  cause : Cause

/-- The three classes of faults. -/
inductive Category where
  | syntaxFlaw
  | cutOff
  | data
  deriving DecidableEq, Repr

namespace Unfinished

/-- The words for what was cut off. -/
def describe : Unfinished → String
  | value => "a value"
  | object => "an object"
  | list => "a list"
  | string => "a string"

end Unfinished

namespace Flaw

def message : Flaw → String
  | cutOff what => "EOF while parsing " ++ what.describe
  | noValue => "expected value"
  | noWord => "expected ident"
  | noColon => "expected `:`"
  | noItemSeparator => "expected `,` or `]`"
  | noMemberSeparator => "expected `,` or `\x7d`"
  | keyNotString => "key must be a string"
  | trailingComma => "trailing comma"
  | trailingCharacters => "trailing characters"
  | badNumber => "invalid number"
  | numberOutOfRange => "number out of range"
  | badEscape => "invalid escape"
  | badCodePoint => "invalid unicode code point"
  | loneSurrogate => "lone leading surrogate in hex escape"
  | unfinishedSurrogate => "unexpected end of hex escape"
  | controlCharacter => "control character (\\u0000-\\u001F) found while parsing a string"
  | tooDeep => "recursion limit exceeded"

/-- The class of a flaw. -/
def category : Flaw → Category
  | cutOff _ => .cutOff
  | _ => .syntaxFlaw

/-- A flaw as a fault at the value in hand. -/
def fault (f : Flaw) : Fault :=
  ⟨[], .flaw f⟩

end Flaw

namespace Found

/-- The words for what was found. -/
def describe : Found → String
  | null => "null"
  | bool b => "boolean `" ++ (if b then "true" else "false") ++ "`"
  | number (.real x) => "floating point `" ++ String.ofList (Number.real x).chars ++ "`"
  | number n => "integer `" ++ String.ofList n.chars ++ "`"
  | string s => "string " ++ Text.quoted s
  | list => "sequence"
  | object => "map"

end Found

namespace Mismatch

/-- A choice among names. -/
def choice : List String → String
  | [] => "there are no variants"
  | [a] => "expected `" ++ a ++ "`"
  | [a, b] => "expected `" ++ a ++ "` or `" ++ b ++ "`"
  | names => "expected one of " ++ ", ".intercalate (names.map fun n => "`" ++ n ++ "`")

def message : Mismatch → String
  | kind found expected => "invalid type: " ++ found.describe ++ ", expected " ++ expected
  | range found expected => "invalid value: " ++ found.describe ++ ", expected " ++ expected
  | length found expected =>
    "invalid length " ++ String.ofList (Decimal.natDigits found) ++ ", expected " ++ expected
  | unknownVariant name variants => "unknown variant `" ++ name ++ "`, " ++ choice variants
  | missingField name => "missing field `" ++ name ++ "`"
  | duplicateField name => "duplicate field `" ++ name ++ "`"
  | malformed reason => reason

/-- A mismatch as a fault at the value in hand. -/
def fault (m : Mismatch) : Fault :=
  ⟨[], .mismatch m⟩

end Mismatch

namespace Segment

/-- A step behind the steps before it; the first key has no point in front. -/
def render (first : Bool) : Segment → String
  | index i => "[" ++ String.ofList (Decimal.natDigits i) ++ "]"
  | key name => if first then name else "." ++ name
  | variant name => if first then name else "." ++ name

/-- A path, from its outermost step. -/
def renderPath : List Segment → String
  | [] => ""
  | s :: rest => s.render true ++ String.join (rest.map (render false))

end Segment

namespace Fault

/-- The text of a fault, without its path. -/
def message (f : Fault) : String :=
  match f.cause with
  | .flaw flaw => flaw.message
  | .mismatch mismatch => mismatch.message

/-- The text of a fault behind its path. -/
def located (f : Fault) : String :=
  if f.path.isEmpty then f.message else Segment.renderPath f.path ++ ": " ++ f.message

/-- The class of a fault. -/
def category (f : Fault) : Category :=
  match f.cause with
  | .flaw flaw => flaw.category
  | .mismatch _ => .data

/-- A fault met in a part of the value in hand. -/
def within (s : Segment) (f : Fault) : Fault :=
  { f with path := s :: f.path }

end Fault
end Json
end SearchPolling
