/-!
# Punycode

A label of a host name that is not ASCII is written in ASCII: its ASCII characters, and
then for every other character the distance to its place, as digits of varying weight.
-/

namespace SearchPolling
namespace Url
namespace Punycode

/-- The digits, which stand for the numbers below 36. -/
def alphabet : List Char :=
  "abcdefghijklmnopqrstuvwxyz0123456789".toList

/-- The digit of a number below 36. -/
def digit (n : Nat) : Char :=
  alphabet.getD n '9'

/-- The least number that is not the last digit at a place, which is a multiple of 36. -/
def bound (place bias : Nat) : Nat :=
  max 1 (min 26 (place - bias))

theorem bound_mem (place bias : Nat) : 1 ≤ bound place bias ∧ bound place bias ≤ 26 := by
  unfold bound
  omega

/-- A distance as digits, from a place on. -/
def digits (bias : Nat) (place distance : Nat) : List Char :=
  let b := bound place bias
  if distance < b then [digit distance]
  else
    let rest := (distance - b) / (36 - b)
    digit (b + (distance - b) % (36 - b)) :: digits bias (place + 36) rest
termination_by distance
decreasing_by
  have hb := bound_mem place bias
  exact Nat.lt_of_le_of_lt (Nat.div_le_self _ _) (by omega)

/-- Scales a distance down until it is small. -/
def scale (delta steps : Nat) : Nat :=
  if 455 < delta then scale (delta / 35) (steps + 36)
  else steps + 36 * delta / (delta + 38)
termination_by delta
decreasing_by exact Nat.div_lt_self (by omega) (by omega)

/-- The bias after a distance has been written. -/
def adapt (delta count : Nat) (first : Bool) : Nat :=
  let delta := if first then delta / 700 else delta / 2
  scale (delta + delta / count) 0

/-- What is carried from character to character. -/
structure Progress where
  delta : Nat
  bias : Nat
  handled : Nat
  first : Bool
  /-- The digits so far. -/
  output : List Char

/-- Writes all occurrences of the character with code point `n`. -/
def handle (n : Nat) (p : Progress) : List Char → Progress
  | [] => p
  | c :: rest =>
    if c.toNat < n then handle n { p with delta := p.delta + 1 } rest
    else if c.toNat = n then
      handle n {
        delta := 0
        bias := adapt p.delta (p.handled + 1) p.first
        handled := p.handled + 1
        first := false
        output := p.output ++ digits p.bias 36 p.delta } rest
    else handle n p rest

/-- Writes the characters with the given code points, which ascend from `n` on. -/
def run (label : List Char) (n : Nat) (p : Progress) : List Nat → Progress
  | [] => p
  | m :: rest =>
    let p := handle m { p with delta := p.delta + (m - n) * (p.handled + 1) } label
    run label (m + 1) { p with delta := p.delta + 1 } rest

/-- A label in ASCII, behind its mark if it was not ASCII before. -/
def encodeLabel (label : List Char) : List Char :=
  let basic := label.filter fun c => c.toNat < 0x80
  if basic.length = label.length then label
  else
    let others := (label.filter fun c => 0x80 ≤ c.toNat).map Char.toNat
    let points := (others.mergeSort fun a b => a ≤ b).eraseDups
    let p := run label 0x80 ⟨0, 72, basic.length, true, []⟩ points
    "xn--".toList ++ (if basic.isEmpty then [] else basic ++ ['-']) ++ p.output

end Punycode
end Url
end SearchPolling
