import Intake.Number.Whole

/-!
# Doubles from decimal digits

A literal such as `2.50e-3` is read in double arithmetic: its leading digits, as many as fit
64 bits, are collected into one integer, and this integer is multiplied or divided by one
power of ten.  Digits beyond that count only by their place.  A number too large for a
double has no value.

* `collect` gathers leading digits below `2 ^ 64`.
* `scale?` multiplies by a power of ten.
* `double?` reads the digits before and after the point with an exponent.
-/

namespace Intake.Number

/-- Appends digits to an integer as long as it stays below `2 ^ 64`; the first digit that
does not fit ends this, and the number of digits left over is returned. -/
def collect (size : Nat) : List Char → Nat × Nat
  | [] => (size, 0)
  | c :: rest =>
    let next := 10 * size + (c.toNat - '0'.toNat)
    if next < 0x10000000000000000 then collect next rest else (size, rest.length + 1)

/-- The largest exponent of which a power of ten is a double. -/
def powerLimit : Nat := 308

/-- A power of ten as a double. -/
def tenPower (n : Nat) : Float :=
  Float.ofScientific 1 false n

/-- Multiplies a double by a power of ten.  There is no result above the largest double. -/
def scale? (x : Float) (exponent : Int) : Option Float :=
  if exponent.natAbs ≤ powerLimit then
    if 0 ≤ exponent then
      let y := x * tenPower exponent.natAbs
      if y.isInf then none else some y
    else
      some (x / tenPower exponent.natAbs)
  else if x == 0 then some x
  else if 0 ≤ exponent then none
  else scale? (x / tenPower powerLimit) (exponent + powerLimit)
termination_by exponent.natAbs
decreasing_by simp only [powerLimit] at *; omega

/-- The double with the given digits before and after the point and power of ten. -/
def double? (whole fraction : List Char) (exponent : Int) : Option Float :=
  let (size, left) := collect 0 whole
  let (size, unused) := collect size fraction
  scale? size.toUInt64.toFloat (left - (fraction.length - unused : Nat) + exponent)

end Intake.Number
