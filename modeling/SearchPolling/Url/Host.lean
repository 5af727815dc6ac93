import SearchPolling.Decimal.Layout
import SearchPolling.Url.Percent
import SearchPolling.Url.Punycode

/-!
# Hosts

A host is a name, an address of four numbers, or an address of eight.  An address of
four numbers may be written in fewer parts and in other bases; a name that ends in a
number has to be one.

The tables of international names are left out: a letter beyond ASCII is encoded as it
stands, and none is refused.
-/

namespace SearchPolling

/-- A host. -/
inductive Url.Host where
  | name (name : List Char)
  | ipv4 (address : Nat)
  | ipv6 (pieces : List Nat)
  deriving DecidableEq, Repr

namespace Url
namespace Host

/-- A character that no host may hold. -/
def isForbidden (c : Char) : Bool :=
  ['\x00', '\t', '\n', '\r', ' ', '#', '/', ':', '<', '>', '?', '@', '[', '\\', ']', '^',
    '|'].contains c

/-- A character that no host name of the web may hold. -/
def isForbiddenInName (c : Char) : Bool :=
  isForbidden c || c.toNat < 0x20 || c = '%' || c = '\x7F'

/-! ## Addresses of four numbers -/

/-- The number that digits spell in a base. -/
def number? (base : Nat) (cs : List Char) : Option Nat :=
  cs.foldlM (fun n c => do
    let d ← Json.hexValue? c
    if d < base then some (n * base + d) else none) 0

/-- A part of an address: hexadecimal behind `0x`, octal behind a zero, or decimal. -/
def part? : List Char → Option Nat
  | [] => none
  | '0' :: 'x' :: digits => number? 16 digits
  | '0' :: 'X' :: digits => number? 16 digits
  | '0' :: d :: digits => number? 8 (d :: digits)
  | digits => number? 10 digits

/-- The parts of a name, without an empty one at its end. -/
def parts (cs : List Char) : List (List Char) :=
  let all := cs.splitOn '.'
  if 1 < all.length && all.getLast? = some [] then all.dropLast else all

/-- Whether a name ends in a number. -/
def endsInNumber (cs : List Char) : Bool :=
  match (parts cs).getLast? with
  | none => false
  | some [] => false
  | some last =>
    last.all Char.isDigit ||
      match last with
      | '0' :: 'x' :: _ => (part? last).isSome
      | '0' :: 'X' :: _ => (part? last).isSome
      | _ => false

/-- The address of parts, of which the last fills what the others leave. -/
def address? (numbers : List Nat) : Option Nat :=
  match numbers.getLast? with
  | none => none
  | some last =>
    let front := numbers.dropLast
    if 4 < numbers.length || front.any (255 < ·) || Nat.pow 256 (5 - numbers.length) ≤ last then none
    else some (front.zipIdx.foldl (fun sum (n, i) => sum + n * Nat.pow 256 (3 - i)) last)

/-- Reads an address of four numbers. -/
def ipv4? (cs : List Char) : Option Host := do
  let numbers ← (parts cs).mapM part?
  (address? numbers).map ipv4

/-! ## Addresses of eight numbers -/

/-- A piece of up to four hexadecimal digits. -/
def piece? (cs : List Char) : Option Nat :=
  if cs.isEmpty || 4 < cs.length then none else number? 16 cs

/-- The two pieces of an address of four decimal numbers. -/
def embedded? (cs : List Char) : Option (List Nat) := do
  let ps := cs.splitOn '.'
  if ps.length ≠ 4 then none
  let ns ← ps.mapM fun p =>
    if p.isEmpty || (1 < p.length && p.head? = some '0') then none
    else (number? 10 p).bind fun n => if n ≤ 255 then some n else none
  match ns with
  | [a, b, c, d] => some [a * 256 + b, c * 256 + d]
  | _ => none

/-- Pieces between colons; the last may be an address of four numbers. -/
def pieces? : List (List Char) → Option (List Nat)
  | [] => some []
  | [last] => if last.contains '.' then embedded? last else (piece? last).map ([·])
  | p :: rest => do
    let n ← piece? p
    let ns ← pieces? rest
    return n :: ns

/-- The pieces of a text, which has none if it is empty. -/
def pieceList? (cs : List Char) : Option (List Nat) :=
  if cs.isEmpty then some [] else pieces? (cs.splitOn ':')

/-- Cuts a text at the first pair of colons. -/
def cutDouble : List Char → Option (List Char × List Char)
  | ':' :: ':' :: rest => some ([], rest)
  | c :: rest => (cutDouble rest).map fun (a, b) => (c :: a, b)
  | [] => none

/-- Reads an address of eight numbers; a pair of colons stands for zeros. -/
def ipv6? (cs : List Char) : Option Host :=
  match cutDouble cs with
  | none => do
    let ns ← pieceList? cs
    if ns.length = 8 then some (ipv6 ns) else none
  | some (front, back) => do
    if front.contains '.' then none
    let a ← pieceList? front
    let b ← pieceList? back
    if a.length + b.length < 8 then
      some (ipv6 (a ++ List.replicate (8 - a.length - b.length) 0 ++ b))
    else none

/-- A host in brackets. -/
def bracketed? (cs : List Char) : Option Host :=
  if cs.getLast? = some ']' then ipv6? cs.dropLast else none

/-! ## Reading and writing hosts -/

/-- A name in ASCII and lower case. -/
def asciiName (cs : List Char) : List Char :=
  ['.'].intercalate ((cs.splitOn '.').map fun label =>
    Punycode.encodeLabel (label.map Char.toLower))

/-- Reads a host of one of the schemes that the web knows. -/
def ofWeb? (cs : List Char) : Option Host :=
  match cs with
  | '[' :: rest => bracketed? rest
  | cs =>
    let name := asciiName (Text.Glyph.lossy (Text.Glyph.ofBytes (Percent.decode cs)))
    if name.isEmpty || name.any isForbiddenInName then none
    else if endsInNumber name then ipv4? name
    else some (.name name)

/-- Reads a host of another scheme. -/
def ofOther? (cs : List Char) : Option Host :=
  match cs with
  | '[' :: rest => bracketed? rest
  | cs =>
    if cs.any isForbidden then none else some (.name (Percent.encode Percent.controls cs))

/-- The longest run of at least two zeros: where it begins and its length. -/
def longestZeros (ns : List Nat) : Nat × Nat :=
  let runs := (List.range ns.length).map fun i =>
    (i, ((ns.drop i).takeWhile (· = 0)).length)
  runs.foldl (fun best run => if best.2 < run.2 && 1 < run.2 then run else best) (0, 0)

/-- Pieces with colons between them. -/
def pieceChars (ns : List Nat) : List Char :=
  [':'].intercalate (ns.map (Nat.toDigits 16))

def chars : Host → List Char
  | name cs => cs
  | ipv4 a =>
    ['.'].intercalate ([a / 16777216, a / 65536 % 256, a / 256 % 256, a % 256].map
      Decimal.natDigits)
  | ipv6 ns =>
    let (start, count) := longestZeros ns
    let inner :=
      if count = 0 then pieceChars ns
      else pieceChars (ns.take start) ++ ':' :: ':' :: pieceChars (ns.drop (start + count))
    '[' :: (inner ++ [']'])

end Host
end Url
end SearchPolling
