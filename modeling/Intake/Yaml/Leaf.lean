import Intake.Number.Whole
import Intake.Number.Numeral

/-!
# Leaves of YAML documents

A scalar is a text that may be plain and may have a tag.  What it stands for depends on the
question: where only text can stand it is its text, and where anything can stand a plain
`3` or `true` is a number or a truth value and no string (`Leaf.string?`).

Plain text stands for a number if it is finite and fits: an integer in base 16, 8 or 2 must
fit 128 bits, a decimal must not round to infinity (`isNumber`).
-/

namespace Intake.Yaml

open Number

/-- A leaf of a YAML document. -/
inductive Leaf where
  /-- A scalar: its text, whether it is plain, and its tag. -/
  | scalar (text : String) (plain : Bool) (tag : Option String)
  /-- A key with parts, or a node that contains itself: nothing can be read from it. -/
  | unreadable
deriving DecidableEq

/-! ### Numbers in plain text -/

/-- The value of digits in a base, if there is at least one digit and no other character. -/
def basedValue? (base : Nat) (cs : List Char) : Option Nat :=
  if cs.isEmpty then none
  else cs.foldlM
    (fun value c => (hexValue? c).bind fun digit =>
      if digit < base then some (value * base + digit) else none) 0

/-- The value of an integer in base 16, 8 or 2, which is marked in front. -/
def markedValue? : List Char → Option Nat
  | '0' :: 'x' :: rest => basedValue? 16 rest
  | '0' :: 'o' :: rest => basedValue? 8 rest
  | '0' :: 'b' :: rest => basedValue? 2 rest
  | _ => none

/-- Whether a signed integer fits 128 bits; only a negative one needs a sign bit. -/
def fitsWord (negative : Bool) (size : Nat) : Bool :=
  if negative then size ≤ Nat.pow 2 127 else size < Nat.pow 2 128

/-- Whether digits have a superfluous zero in front. -/
def isZeroPadded : List Char → Bool
  | '0' :: c :: rest => (c :: rest).all Char.isDigit
  | _ => false

/-- The first number that rounds to infinity: halfway from the largest double to the power
of two above it. -/
def infiniteFrom : Nat := Nat.pow 2 1024 - Nat.pow 2 970

/-- Whether `size * 10 ^ exponent` is too small to round to infinity.  The number of digits
settles this unless the number is near the limit. -/
def isFiniteDecimal (size : Nat) (exponent : Int) : Bool :=
  let digits : Int := (Nat.toDigits 10 size).length
  size == 0 || digits + exponent ≤ 308
    || (digits + exponent ≤ 309
      && size * Nat.pow 10 exponent.toNat < infiniteFrom * Nat.pow 10 (-exponent).toNat)

/-- The digits of a decimal as one integer, and the power of ten it is multiplied by. -/
def decimalParts (cs : List Char) : Nat × Int :=
  let whole := cs.takeWhile Char.isDigit
  let rest := cs.dropWhile Char.isDigit
  let fraction := if rest.head? == some '.' then rest.tail.takeWhile Char.isDigit else []
  let behind :=
    if rest.head? == some '.' then rest.tail.dropWhile Char.isDigit else rest
  let (negative, exponent) := splitSign behind.tail
  (digitsValue (whole ++ fraction),
    signed negative (digitsValue exponent) - (fraction.length : Int))

/-- Whether a text without sign is a decimal with a finite value. -/
def isFiniteMagnitude (cs : List Char) : Bool :=
  isMagnitude cs && isFiniteDecimal (decimalParts cs).1 (decimalParts cs).2

/-- The plain texts, without sign, that stand for infinity. -/
def infiniteTexts : List String := [".inf", ".Inf", ".INF"]

def nanTexts : List String := [".nan", ".NaN", ".NAN"]

def isNumber (s : String) : Bool :=
  let (negative, unsigned) := splitSign s.toList
  nanTexts.contains s || infiniteTexts.contains (String.ofList unsigned)
    || ((markedValue? unsigned).map (fitsWord negative)).getD false
    || (isFiniteMagnitude unsigned && !isZeroPadded unsigned)

/-! ### What a leaf stands for -/

/-- The plain texts that stand for nothing. -/
def nullTexts : List String := ["", "~", "null", "Null", "NULL"]

def plainBool? (s : String) : Option Bool :=
  if ["true", "True", "TRUE"].contains s then some true
  else if ["false", "False", "FALSE"].contains s then some false
  else none

/-- The tags of the scalars that are no strings. -/
def otherTags : List String :=
  ["bool", "int", "float", "null"].map ("tag:yaml.org,2002:" ++ ·)

namespace Leaf

/-- The scalar of a node that has been left out. -/
def missing (tag : Option String) : Leaf := .scalar "" true tag

def text? : Leaf → Option String
  | scalar text _ _ => some text
  | unreadable => none

def bool? : Leaf → Option Bool
  | scalar text true _ => plainBool? text
  | _ => none

/-- The string that a leaf stands for, if it does not stand for anything else.  A tag that
is not of YAML itself names something else. -/
def string? : Leaf → Option String
  | scalar text plain none =>
    if plain && (nullTexts.contains text || (plainBool? text).isSome || isNumber text) then none
    else some text
  | scalar text _ (some tag) =>
    if otherTags.contains tag || tag.startsWith "!" then none else some text
  | unreadable => none

/-- Whether a leaf stands for a mapping without members where only a mapping can stand. -/
def isMissing : Leaf → Bool
  | scalar text plain _ => plain && text.isEmpty
  | unreadable => false

end Leaf

end Intake.Yaml
