/-!
# Shortest decimal digits of a binary fraction

A double stands for all the real numbers that round to it.  Its shortest decimal is taken
from the coarsest decimal grid (the multiples of `10 ^ e` with the largest `e`) that has a
point among those numbers, and is the point of this grid nearest to the double; if two are
equally near, the larger.

`Binary` is a positive binary fraction `size * 2 ^ exponent` together with what decides
which numbers round to it, and `Binary.shortest` gives digits and exponent of its shortest
decimal.  All arithmetic is on natural numbers, by clearing denominators.
-/

namespace Intake.Number

/-- A positive finite double. -/
structure Binary where
  /-- The significand, below `2 ^ 53`. -/
  size : Nat
  exponent : Int
  /-- Whether the next smaller double is only half as far away as the next larger one. -/
  narrow : Bool
deriving DecidableEq, Repr

namespace Binary

/-- A power with integer exponent as a fraction: numerator and denominator. -/
def power (base : Nat) (e : Int) : Nat × Nat :=
  (base.pow e.toNat, base.pow (-e).toNat)

/-- The number itself, and how far below and above it the numbers that round to it reach,
all in quarters of `2 ^ exponent` over the grid step `10 ^ e`: three numerators and their
common denominator. -/
structure Scaled where
  /-- Four times the significand, scaled. -/
  value : Nat
  below : Nat
  above : Nat
  unit : Nat

/-- Expresses a double in steps of the grid `10 ^ e`. -/
def scaled (b : Binary) (e : Int) : Scaled :=
  let two := power 2 b.exponent
  let ten := power 10 e
  let factor := two.1 * ten.2
  { value := 4 * b.size * factor
    below := (if b.narrow then 1 else 2) * factor
    above := 2 * factor
    unit := 4 * two.2 * ten.1 }

/-- Whether the grid point with the given number of steps rounds to the double.  The ends
of the interval do exactly if the significand is even. -/
def reaches (b : Binary) (s : Scaled) (steps : Nat) : Bool :=
  let point := steps * s.unit
  if b.size % 2 = 0 then
    s.value ≤ point + s.below && point ≤ s.value + s.above
  else
    s.value < point + s.below && point < s.value + s.above

/-- The grid point of step `10 ^ e` that stands for the double, if the grid has one: of the
two neighbours of the double the nearer that rounds to it, the upper one on a tie. -/
def gridPoint? (b : Binary) (e : Int) : Option Nat :=
  let s := b.scaled e
  let low := s.value / s.unit
  let lower := b.reaches s low
  let upper := b.reaches s (low + 1)
  if upper && (!lower || s.unit ≤ 2 * (s.value % s.unit)) then some (low + 1)
  else if lower then some low
  else none

/-- The largest power of ten that a double reaches. -/
def topExponent : Int := 308

/-- How many grids are tried: down to the step `10 ^ (-342)`, which is finer than the
distance of any two doubles. -/
def gridCount : Nat := 651

/-- Digits and exponent of the shortest decimal that stands for a double. -/
def shortest (b : Binary) : Nat × Int :=
  ((List.range gridCount).findSome? fun (i : Nat) =>
    (b.gridPoint? (topExponent - i)).map fun steps => (steps, topExponent - i)).getD (0, 0)

end Binary

end Intake.Number
