/-!
# The fewest digits that read back

A finite binary value `m · 2^q` stands for every real that rounds to it.  The
decimal chosen for it has as few digits as any decimal among those reals has, and
is the nearest of those; an exact tie between two goes by a rule of the format.
All arithmetic is on natural numbers.
-/

namespace SearchPolling
namespace Decimal

/-- Which of two equally near decimals is taken. -/
inductive Tie where
  /-- The one whose last digit is even. -/
  | toEven
  /-- The larger one. -/
  | up
  deriving DecidableEq, Repr

/-- The magnitude `mantissa · 2^exponent` of a finite binary value. -/
structure Binary where
  mantissa : Nat
  exponent : Int
  deriving DecidableEq, Repr

/-- The magnitude `coefficient · 10^exponent`. -/
structure Scientific where
  coefficient : Nat
  exponent : Int
  deriving DecidableEq, Repr

namespace Binary

/-- The mantissa of the least normal value of each exponent. -/
def hiddenBit : Nat := 1 <<< 52

/-- The magnitude that the bits of a finite binary64 value stand for. -/
def ofBits (bits : UInt64) : Binary :=
  let fraction := bits.toNat % hiddenBit
  let biased := bits.toNat / hiddenBit % 2048
  if biased = 0 then ⟨fraction, -1074⟩ else ⟨hiddenBit + fraction, (biased : Int) - 1075⟩

/-- Whether the gap below a value is half the gap above it: so it is for the
powers of two, except the least normal one. -/
def isNarrowBelow (b : Binary) : Bool :=
  b.mantissa = hiddenBit && -1074 < b.exponent

/-- Four times the value, in units of its own last binary place, over the decimal
unit `10^k`: numerators of the lower end, the value and the upper end of the reals
that round to it, over one denominator. -/
structure Scaled where
  lower : Nat
  value : Nat
  upper : Nat
  unit : Nat

/-- Measures a value and its interval in decimal units of `10^k`. -/
def scaled (b : Binary) (k : Int) : Scaled :=
  let num := Nat.pow 10 (-k).toNat <<< b.exponent.toNat
  let den := (4 * Nat.pow 10 k.toNat) <<< (-b.exponent).toNat
  let below := if b.isNarrowBelow then 1 else 2
  ⟨(4 * b.mantissa - below) * num, 4 * b.mantissa * num, (4 * b.mantissa + 2) * num, den⟩

/-- Whether the decimal `d` in the units of `s` is among the reals that round to the
value: the ends are when the mantissa is even. -/
def Scaled.admits (s : Scaled) (even : Bool) (d : Nat) : Bool :=
  if even then s.lower ≤ d * s.unit && d * s.unit ≤ s.upper
  else s.lower < d * s.unit && d * s.unit < s.upper

/-- The better of the value's two neighbours on the decimal grid of `10^k`, if
one of them is among the reals that round to the value. -/
def onGrid (b : Binary) (tie : Tie) (k : Int) : Option Nat :=
  let s := b.scaled k
  let even := b.mantissa % 2 = 0
  let low := s.value / s.unit
  let high := low + 1
  match s.admits even low, s.admits even high with
  | true, true =>
    let twice := 2 * s.value
    let sum := (low + high) * s.unit
    if twice < sum then some low
    else if sum < twice then some high
    else match tie with
      | .toEven => some (if low % 2 = 0 then low else high)
      | .up => some high
  | true, false => some low
  | false, true => some high
  | false, false => none

/-- The number of decimal digits in front of the point, negative when the value
begins with zeros behind the point: the least `k` with the value below `10^k`,
found from an estimate of its binary length that is never too high. -/
def decimalPoint (b : Binary) : Int :=
  let estimate := ((b.mantissa.log2 : Int) + b.exponent) * 30103 / 100000
  let reaches (k : Int) : Bool := let s := b.scaled k; s.unit ≤ s.value
  if reaches (estimate + 1) then estimate + 2 else if reaches estimate then estimate + 1
  else estimate

/-- Tries grids of ever more digits, `count` of them at most. -/
def search (b : Binary) (tie : Tie) (point : Int) : Nat → Nat → Scientific
  | 0, digits => ⟨b.mantissa, point - digits⟩
  | count + 1, digits =>
    let k := point - digits
    match b.onGrid tie k with
    | some d => ⟨d, k⟩
    | none => search b tie point count (digits + 1)

/-- The decimal for a positive value: seventeen digits always suffice. -/
def shortest (b : Binary) (tie : Tie) : Scientific :=
  b.search tie b.decimalPoint 17 1

end Binary

namespace Scientific

/-- Takes `count` zeros at most off the end of the coefficient. -/
def dropZeros : Nat → Scientific → Scientific
  | 0, d => d
  | count + 1, d =>
    if d.coefficient % 10 = 0 && d.coefficient ≠ 0 then
      dropZeros count ⟨d.coefficient / 10, d.exponent + 1⟩
    else d

/-- The same magnitude with no zero at the end of the coefficient. -/
def normalize (d : Scientific) : Scientific :=
  dropZeros (Nat.toDigits 10 d.coefficient).length d

end Scientific
end Decimal
end SearchPolling
