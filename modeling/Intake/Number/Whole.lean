/-!
# Whole numbers as text

Parameters of rules and integer fields are signed 64-bit numbers written in decimal.

* `decimal` writes an integer: a minus sign if it is negative, then its digits.
* `readWhole?` reads one optional sign followed by one or more ASCII digits, and nothing
  else; `readInt64?` also asks the number to fit 64 bits.
* `hexValue?` reads a hexadecimal digit.
* `leadingWhole` reads the longest numeric beginning of a text and never fails.
-/

namespace Intake.Number

/-- The value of a run of decimal digits. -/
def digitsValue (digits : List Char) : Nat :=
  Nat.ofDigitChars 10 digits 0

/-- The value of a hexadecimal digit. -/
def hexValue? (c : Char) : Option Nat :=
  if c.isDigit then some (c.toNat - '0'.toNat)
  else if 'a' ≤ c ∧ c ≤ 'f' then some (c.toNat - 'a'.toNat + 10)
  else if 'A' ≤ c ∧ c ≤ 'F' then some (c.toNat - 'A'.toNat + 10)
  else none

/-- Splits off one leading sign; `true` stands for a minus sign. -/
def splitSign : List Char → Bool × List Char
  | '-' :: rest => (true, rest)
  | '+' :: rest => (false, rest)
  | cs => (false, cs)

/-- The integer of a sign and a size. -/
def signed (negative : Bool) (size : Nat) : Int :=
  if negative then -(size : Int) else size

/-- Writes an integer in decimal. -/
def decimal (n : Int) : List Char :=
  if n < 0 then '-' :: Nat.toDigits 10 n.natAbs else Nat.toDigits 10 n.natAbs

/-- Reads one optional sign and one or more digits. -/
def readWhole? (cs : List Char) : Option Int :=
  let (negative, digits) := splitSign cs
  if digits ≠ [] ∧ digits.all Char.isDigit then some (signed negative (digitsValue digits))
  else none

/-- The 64-bit number equal to an integer, if there is one. -/
def int64? (n : Int) : Option Int64 :=
  if -0x8000000000000000 ≤ n ∧ n < 0x8000000000000000 then some (Int64.ofInt n) else none

/-- Reads a whole number that fits 64 bits. -/
def readInt64? (cs : List Char) : Option Int64 :=
  (readWhole? cs).bind int64?

/-- The largest size a leading number can have. -/
def leadingLimit : Nat := 0x7FFFFFFFFFFFFFFF

/-- Puts a digit behind the digits of a size; neither step goes beyond `leadingLimit`. -/
def pushDigit (size : Nat) (digit : Char) : Nat :=
  min (min (size * 10) leadingLimit + (digit.toNat - '0'.toNat)) leadingLimit

/-- The integer that a text begins with after an optional sign, `0` if it begins with no
digit.  Its size is collected digit by digit and stays at `leadingLimit` once it gets there. -/
def leadingWhole (cs : List Char) : Int :=
  let (negative, rest) := splitSign cs
  signed negative ((rest.takeWhile Char.isDigit).foldl pushDigit 0)

end Intake.Number
