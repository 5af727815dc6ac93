import SearchPolling.Decimal.Shortest

/-!
# Laying out a decimal

A number format chooses between positional digits and an exponent, and whether an
integral value shows a decimal point.  These choices are one `Layout`; the digits
themselves are those of `Decimal.Binary.shortest`.
-/

namespace SearchPolling
namespace Decimal

/-- The choices of a number format. -/
structure Layout where
  /-- How an exact tie between two decimals goes. -/
  tie : Tie
  /-- The least and the greatest exponent of the leading digit that is written in
  positional digits; every exponent when absent. -/
  positional : Option (Int × Int)
  /-- Whether an integral value in positional digits ends in `.0`. -/
  showPoint : Bool
  deriving Repr

/-- The digits of a natural number. -/
def natDigits (n : Nat) : List Char :=
  Nat.toDigits 10 n

theorem isDigit_of_mem_natDigits {n : Nat} {c : Char} (h : c ∈ natDigits n) : c.isDigit = true :=
  Nat.isDigit_of_mem_toDigits (by decide) (by decide) h

/-- The digits of an integer, with a sign if it is negative. -/
def intDigits (i : Int) : List Char :=
  if i < 0 then '-' :: natDigits i.natAbs else natDigits i.natAbs

/-- Positional digits with the decimal point behind `point` of them; zeros fill up
where the digits do not reach the point. -/
def positionalDigits (showPoint : Bool) (digits : List Char) (point : Int) : List Char :=
  if point ≤ 0 then
    '0' :: '.' :: (List.replicate (-point).toNat '0' ++ digits)
  else if digits.length ≤ point.toNat then
    let whole := digits ++ List.replicate (point.toNat - digits.length) '0'
    if showPoint then whole ++ ['.', '0'] else whole
  else digits.take point.toNat ++ '.' :: digits.drop point.toNat

/-- Digits with one in front of the point, and a signed exponent. -/
def exponentDigits (digits : List Char) (exponent : Int) : List Char :=
  let lead := digits.take 1
  let tail := digits.drop 1
  let sign := if exponent < 0 then '-' else '+'
  lead ++ (if tail.isEmpty then [] else '.' :: tail) ++ 'e' :: sign :: natDigits exponent.natAbs

namespace Layout

/-- Whether a leading digit of this exponent is written in positional digits. -/
def isPositional (l : Layout) (exponent : Int) : Bool :=
  match l.positional with
  | none => true
  | some (least, greatest) => least ≤ exponent && exponent ≤ greatest

/-- A positive magnitude with no zero at the end of its coefficient. -/
def magnitude (l : Layout) (d : Scientific) : List Char :=
  let digits := natDigits d.coefficient
  let exponent := d.exponent + digits.length - 1
  if l.isPositional exponent then positionalDigits l.showPoint digits (exponent + 1)
  else exponentDigits digits exponent

/-- A finite value; the sign of a zero is kept. -/
def finite (l : Layout) (x : Float) : List Char :=
  let b := Binary.ofBits x.toBits
  let digits :=
    if b.mantissa = 0 then (if l.showPoint then ['0', '.', '0'] else ['0'])
    else l.magnitude (b.shortest l.tie).normalize
  if x.toBits >>> 63 = 1 then '-' :: digits else digits

end Layout
end Decimal
end SearchPolling
