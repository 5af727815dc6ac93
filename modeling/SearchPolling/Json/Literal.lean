import SearchPolling.Json.Fault
import SearchPolling.Json.Lexeme

/-!
# What literals denote

A string literal denotes a text once its escapes are resolved: two numeric escapes
that form a surrogate pair are one character, and a surrogate that stands alone
denotes nothing.

An integer literal that fits in 64 bits denotes that integer.  Every other number
literal denotes a binary64 value: its digits are collected in 64 bits for as long
as they fit, and the collected integer is scaled by a power of ten, each operation
rounding once.
-/

namespace SearchPolling
namespace Json

namespace StringEnd

/-- The flaw that the end of a string literal is, if it is one. -/
def flaw? : StringEnd → Option Flaw
  | .closed => none
  | .cutOff => some (.cutOff .string)
  | .control => some .controlCharacter
  | .badEscape => some .badEscape
  | .badHex => some .badEscape

/-- The flaw of a leading surrogate with which a string literal ends. -/
def surrogateFlaw : StringEnd → Flaw
  | .cutOff => .cutOff .string
  | .badHex => .badEscape
  | _ => .unfinishedSurrogate

end StringEnd

/-- The first half of a surrogate pair. -/
def isLeadingSurrogate (n : Nat) : Bool :=
  0xD800 ≤ n && n < 0xDC00

/-- The second half of a surrogate pair. -/
def isTrailingSurrogate (n : Nat) : Bool :=
  0xDC00 ≤ n && n < 0xE000

/-- The character of a surrogate pair. -/
def surrogatePair (leading trailing : Nat) : Char :=
  Char.ofNat (0x10000 + (leading - 0xD800) * 0x400 + (trailing - 0xDC00))

namespace StringToken

/-- The characters that the parts of a string literal denote. -/
def unescape (ending : StringEnd) : List StringPart → Except Flaw (List Char)
  | [] =>
    match ending.flaw? with
    | some flaw => .error flaw
    | none => .ok []
  | .char c :: rest => (unescape ending rest).map (c :: ·)
  | .escaped c :: rest => (unescape ending rest).map (c :: ·)
  | .stray :: rest => unescape ending rest
  | .unit n :: rest =>
    if isTrailingSurrogate n then .error .loneSurrogate
    else if isLeadingSurrogate n then
      match rest with
      | [] => .error ending.surrogateFlaw
      | .unit m :: rest' =>
        if isTrailingSurrogate m then (unescape ending rest').map (surrogatePair n m :: ·)
        else .error .loneSurrogate
      | _ :: _ => .error .unfinishedSurrogate
    else (unescape ending rest).map (Char.ofNat n :: ·)

/-- The text of a string literal.  That all of it is UTF-8 is checked last. -/
def text (t : StringToken) : Except Flaw String :=
  match unescape t.ending t.parts with
  | .error flaw => .error flaw
  | .ok cs => if t.parts.contains .stray then .error .badCodePoint else .ok (String.ofList cs)

end StringToken

/-- A significand of 64 bits and a power of ten. -/
structure Scaled where
  significand : UInt64
  exponent : Int
  deriving DecidableEq, Repr

namespace Scaled

/-- One more digit behind a significand, if there is room for it. -/
def appendDigit? (significand : UInt64) (digit : Char) : Option UInt64 :=
  let n := significand.toNat * 10 + (digit.toNat - '0'.toNat)
  if n < UInt64.size then some n.toUInt64 else none

/-- Collects the digits before the point; those that do not fit count as zeros. -/
def appendWhole (x : Scaled) : List Char → Scaled
  | [] => x
  | d :: ds =>
    match appendDigit? x.significand d with
    | some n => appendWhole ⟨n, x.exponent⟩ ds
    | none => ⟨x.significand, x.exponent + (ds.length + 1)⟩

/-- Collects the digits behind the point; those that do not fit are dropped. -/
def appendFraction (x : Scaled) : List Char → Scaled
  | [] => x
  | d :: ds =>
    match appendDigit? x.significand d with
    | some n => appendFraction ⟨n, x.exponent - 1⟩ ds
    | none => x

/-- A power of ten that binary64 can hold. -/
def powerOfTen (k : Nat) : Float :=
  Float.ofScientific 1 false k

/-- Divides by a power of ten, in steps that binary64 can hold. -/
def divide (x : Float) (k : Nat) : Float :=
  if k ≤ 308 then x / powerOfTen k
  else if x == 0 then x
  else divide (x / powerOfTen 308) (k - 308)
termination_by k
decreasing_by omega

/-- The value of a scaled significand. -/
def toFloat? (x : Scaled) : Option Float :=
  let f := x.significand.toFloat
  if x.exponent < 0 then some (divide f x.exponent.natAbs)
  else if x.exponent ≤ 308 then
    let g := f * powerOfTen x.exponent.natAbs
    if g.isFinite then some g else none
  else if f == 0 then some f
  else none

end Scaled

namespace NumberLiteral

/-- The digits of a literal as a scaled significand, its exponent aside. -/
def scaled (n : NumberLiteral) : Scaled :=
  ((⟨0, 0⟩ : Scaled).appendWhole n.whole).appendFraction n.fraction

/-- The size of a literal as a binary64 value.  An exponent of more than 31 bits
leaves zero, or nothing that could be represented. -/
def magnitude? (n : NumberLiteral) : Option Float :=
  let x := n.scaled
  match n.exponent with
  | none => x.toFloat?
  | some e =>
    if 1 <<< 31 ≤ e.natAbs then
      if 0 < e && x.significand != 0 then none else some 0
    else (⟨x.significand, x.exponent + e⟩ : Scaled).toFloat?

/-- The integer of a literal without point and exponent, if it fits in 64 bits.
A negative zero is not an integer. -/
def integer? (n : NumberLiteral) : Option Number :=
  if n.fraction.isEmpty && n.exponent.isNone then
    let size := digitsValue n.whole
    if n.negative then
      if 0 < size && size ≤ 1 <<< 63 then some (.negative (Int64.ofInt (-size))) else none
    else if size < UInt64.size then some (.natural size.toUInt64)
    else none
  else none

/-- What a number literal denotes. -/
def value (n : NumberLiteral) : Except Flaw Number :=
  match n.integer? with
  | some i => .ok i
  | none =>
    match n.magnitude? with
    | some x => .ok (.real (if n.negative then -x else x))
    | none => .error .numberOutOfRange

end NumberLiteral
end Json
end SearchPolling
