import SearchPolling.Json.Decode

/-!
# Query identifiers

Every query has an identifier of 128 bits.  It is written as 32 lower-case
hexadecimal digits in groups of 8, 4, 4, 4 and 12, and may be read in either case,
without the hyphens, in braces, or behind `urn:uuid:`.
-/

namespace SearchPolling
namespace Polling

/-- The identifier of a query. -/
structure QueryId where
  value : BitVec 128
  deriving DecidableEq, Repr

namespace QueryId

/-- The identifier whose value is a given number. -/
def ofNat (n : Nat) : QueryId :=
  ⟨BitVec.ofNat 128 n⟩

/-- The 32 hexadecimal digits of an identifier. -/
def digits (q : QueryId) : List Char :=
  let significant := Nat.toDigits 16 q.value.toNat
  List.replicate (32 - significant.length) '0' ++ significant

/-- Digits in hyphenated groups of the given sizes; the rest is the last group. -/
def hyphenate : List Nat → List Char → List Char
  | [], cs => cs
  | n :: sizes, cs => cs.take n ++ '-' :: hyphenate sizes (cs.drop n)

/-- The sizes of all groups but the last. -/
def groups : List Nat := [8, 4, 4, 4]

def render (q : QueryId) : String :=
  String.ofList (hyphenate groups q.digits)

/-- The value of 32 hexadecimal digits. -/
def ofDigits? (cs : List Char) : Option QueryId :=
  if cs.length = 32 then do
    let values ← cs.mapM Json.hexValue?
    return ofNat (values.foldl (fun n d => n * 16 + d) 0)
  else none

/-- The digits without the hyphens between the groups. -/
def joinGroups? : List Nat → List Char → Option (List Char)
  | [], cs => some cs
  | n :: sizes, cs =>
    match cs.drop n with
    | '-' :: rest => (joinGroups? sizes rest).map (cs.take n ++ ·)
    | _ => none

/-- Reads hyphenated digits. -/
def ofHyphenated? (cs : List Char) : Option QueryId :=
  if cs.length = 36 then (joinGroups? groups cs).bind ofDigits? else none

/-- Reads an identifier in any of its forms. -/
def ofChars? (cs : List Char) : Option QueryId :=
  match cs with
  | '\x7b' :: rest =>
    if rest.getLast? = some '\x7d' then ofHyphenated? rest.dropLast else none
  | 'u' :: 'r' :: 'n' :: ':' :: 'u' :: 'u' :: 'i' :: 'd' :: ':' :: rest => ofHyphenated? rest
  | cs => (ofDigits? cs).orElse fun _ => ofHyphenated? cs

def toJson (q : QueryId) : Json :=
  .string q.render

def decoder : Json.Decoder QueryId :=
  (Json.Decoder.text "a UUID string").refined fun s =>
    match ofChars? s.toList with
    | some q => .ok q
    | none => .error (.malformed "UUID parsing failed")

end QueryId
end Polling
end SearchPolling
