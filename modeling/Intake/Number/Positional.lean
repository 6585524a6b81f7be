import Intake.Number.Shortest

/-!
# Doubles as positional decimals

Floating-point fields are shown without an exponent: a minus sign if the sign bit is set,
the shortest digits that stand for the number, padded with zeros on either side, and a
point only where a fraction follows.  So `1e21` is written with twenty-one zeros, `1.0` as
`1`, and negative zero as `-0`.

* `FloatParts` is what the 64 bits of a double say.
* `positional` writes digits and a decimal exponent without exponent notation.
* `floatText` is the text of a double.
-/

namespace Intake.Number

/-- What the bits of a double say about it. -/
inductive FloatParts where
  | nan
  /-- An infinity, `true` for the negative one. -/
  | infinite (negative : Bool)
  /-- A zero, `true` for the negative one. -/
  | zero (negative : Bool)
  | finite (negative : Bool) (size : Binary)
deriving DecidableEq, Repr

/-- Reads sign, exponent and significand off the 64 bits of a double. -/
def FloatParts.ofBits (bits : Nat) : FloatParts :=
  let negative := bits / 0x8000000000000000 % 2 == 1
  let exponent : Nat := bits / 0x10000000000000 % 0x800
  let significand := bits % 0x10000000000000
  if exponent = 2047 then
    if significand = 0 then .infinite negative else .nan
  else if exponent = 0 then
    if significand = 0 then .zero negative else .finite negative ⟨significand, -1074, false⟩
  else
    .finite negative
      ⟨0x10000000000000 + significand, (exponent : Int) - 1075, significand == 0 && exponent != 1⟩

/-- What the bits of a double say about it. -/
def FloatParts.ofFloat (x : Float) : FloatParts :=
  .ofBits x.toBits.toNat

/-- Whether the parts are those of a finite number. -/
def FloatParts.isFinite : FloatParts → Bool
  | .nan => false
  | .infinite _ => false
  | .zero _ => true
  | .finite _ _ => true

/-- Writes `digits * 10 ^ exponent` with zeros in place of an exponent. -/
def positional (digits : Nat) (exponent : Int) : List Char :=
  let shown := Nat.toDigits 10 digits
  if 0 ≤ exponent then
    shown ++ List.replicate exponent.toNat '0'
  else
    let places := (-exponent).toNat
    let padded := List.replicate (places + 1 - shown.length) '0' ++ shown
    padded.take (padded.length - places) ++ '.' :: padded.drop (padded.length - places)

/-- Puts a minus sign in front of the text of a negative number. -/
def withSign (negative : Bool) (cs : List Char) : List Char :=
  if negative then '-' :: cs else cs

/-- Writes what the bits of a double say. -/
def FloatParts.text : FloatParts → List Char
  | .nan => "NaN".toList
  | .infinite negative => withSign negative "inf".toList
  | .zero negative => withSign negative ['0']
  | .finite negative size => withSign negative (positional size.shortest.1 size.shortest.2)

/-- The text of a double. -/
def floatText (x : Float) : List Char :=
  (FloatParts.ofFloat x).text

end Intake.Number
