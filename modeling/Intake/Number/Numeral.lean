import Intake.Text.Trim
import Intake.Number.Whole

/-!
# Numeric text

`isNumeral` accepts the texts that read as a decimal number: padding, an optional sign,
digits with an optional fraction (`7`, `7.`, `7.5`) or a bare fraction (`.5`), an optional
exponent (`e`, optional sign, digits), padding.  Digits are ASCII digits, and the padding is
the white space of ASCII.
-/

namespace Intake.Number

/-- The padding around a number: the six white-space characters of ASCII. -/
def isPadding (c : Char) : Bool :=
  [' ', '\t', '\n', '\r', '\x0B', '\x0C'].contains c

/-- Whether a text is one or more digits. -/
def isDigits (cs : List Char) : Bool :=
  !cs.isEmpty && cs.all Char.isDigit

/-- Whether a text is empty or an exponent: `e` or `E`, an optional sign, digits. -/
def isExponent : List Char → Bool
  | [] => true
  | c :: rest => (c == 'e' || c == 'E') && isDigits (splitSign rest).2

/-- Whether a text is digits with an optional fraction, or a bare fraction, followed by an
optional exponent. -/
def isMagnitude (cs : List Char) : Bool :=
  let whole := cs.takeWhile Char.isDigit
  match cs.dropWhile Char.isDigit with
  | '.' :: rest =>
    (!whole.isEmpty || !(rest.takeWhile Char.isDigit).isEmpty)
      && isExponent (rest.dropWhile Char.isDigit)
  | rest => !whole.isEmpty && isExponent rest

/-- Whether a text reads as a decimal number. -/
def isNumeral (cs : List Char) : Bool :=
  isMagnitude (splitSign (Text.strip isPadding cs)).2

end Intake.Number
