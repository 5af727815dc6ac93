/-!
# Integers in texts

An integer is written as one digit or more, with a sign in front or none, and has 64
bits.
-/

namespace SearchPolling
namespace Text

/-- The number that digits spell. -/
def ofDigits (cs : List Char) : Nat :=
  cs.foldl (fun n c => 10 * n + (c.toNat - '0'.toNat)) 0

/-- The number that a text of digits spells, if there are any and no more than digits. -/
def nat? (cs : List Char) : Option Nat :=
  if cs.isEmpty || !cs.all Char.isDigit then none else some (ofDigits cs)

/-- The integer of 64 bits that a text spells. -/
def integer? (cs : List Char) : Option Int := do
  let i ← match cs with
    | '-' :: digits => (nat? digits).map fun n => -(n : Int)
    | '+' :: digits => (nat? digits).map Int.ofNat
    | digits => (nat? digits).map Int.ofNat
  if Int64.minValue.toInt ≤ i ∧ i ≤ Int64.maxValue.toInt then some i else none

end Text
end SearchPolling
