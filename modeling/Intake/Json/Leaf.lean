import Intake.Number.Whole
import Intake.Number.Numeral
import Intake.Number.Scaling

/-!
# Leaves of JSON documents

A JSON document has literals, numbers and strings as leaves.

* `Numeral` is a number literal by its parts, so that nothing is lost before it is known
  what the number is needed for.  `readNumeral?` follows the JSON grammar, which is stricter
  than that of numeric form fields: no leading zeros, no bare point, no plus sign.
* `decodeText?` resolves the escapes of a string.  Escapes may spell the two halves of a
  surrogate pair; a half without its partner spells no text, and such a string is the leaf
  `Leaf.unpaired`.
-/

namespace Intake.Json

open Number

/-! ### Numbers -/

structure Numeral where
  negative : Bool
  whole : List Char
  fraction : List Char
  /-- The power of ten, if one is written. -/
  exponent : Option Int
deriving DecidableEq, Repr

/-- Whether digits before a point are written without superfluous zeros. -/
def isWholePart : List Char → Bool
  | [] => false
  | ['0'] => true
  | c :: _ => c != '0'

/-- Reads the digits behind a point, if there is a point; returns what follows. -/
def readFraction? : List Char → Option (List Char × List Char)
  | '.' :: rest =>
    let digits := rest.takeWhile Char.isDigit
    if digits.isEmpty then none else some (digits, rest.dropWhile Char.isDigit)
  | rest => some ([], rest)

/-- Reads an exponent up to the end of the literal, if there is one. -/
def readExponent? : List Char → Option (Option Int)
  | [] => some none
  | c :: rest =>
    let (negative, digits) := splitSign rest
    if (c = 'e' ∨ c = 'E') ∧ isDigits digits then
      some (some (signed negative (digitsValue digits)))
    else none

def readNumeral? (cs : List Char) : Option Numeral := do
  let (negative, rest) := match cs with
    | '-' :: rest => (true, rest)
    | _ => (false, cs)
  let whole := rest.takeWhile Char.isDigit
  if !isWholePart whole then none
  let (fraction, rest) ← readFraction? (rest.dropWhile Char.isDigit)
  let exponent ← readExponent? rest
  return { negative, whole, fraction, exponent }

namespace Numeral

/-- The integer that a literal denotes if it has no fraction, no exponent, and is not a
negative zero. -/
def whole? (n : Numeral) : Option Int :=
  let size := digitsValue n.whole
  if n.fraction = [] ∧ n.exponent = none ∧ ¬(n.negative ∧ size = 0) then
    some (signed n.negative size)
  else none

/-- The double that a literal denotes, if it is not too large for one. -/
def float? (n : Numeral) : Option Float :=
  (double? n.whole n.fraction (n.exponent.getD 0)).map fun x => if n.negative then -x else x

def write (n : Numeral) : List Char :=
  (if n.negative then ['-'] else []) ++ n.whole
    ++ (if n.fraction.isEmpty then [] else '.' :: n.fraction)
    ++ (match n.exponent with
      | none => []
      | some e => 'e' :: decimal e)

end Numeral

/-! ### Strings -/

/-- The code that a single-character escape stands for. -/
def escapeCode? : Char → Option Nat
  | '\"' => some 0x22
  | '\\' => some 0x5C
  | '/' => some 0x2F
  | 'b' => some 0x8
  | 'f' => some 0xC
  | 'n' => some 0xA
  | 'r' => some 0xD
  | 't' => some 0x9
  | _ => none

/-- Resolves escapes into code numbers.  Four hexadecimal digits spell a number below
`2 ^ 16`, which may be half of a surrogate pair. -/
def unescape? : List Char → Option (List Nat)
  | [] => some []
  | '\\' :: 'u' :: a :: b :: c :: d :: rest => do
    let code := (((← hexValue? a) * 16 + (← hexValue? b)) * 16 + (← hexValue? c)) * 16
      + (← hexValue? d)
    return code :: (← unescape? rest)
  | '\\' :: c :: rest => do
    let code ← escapeCode? c
    return code :: (← unescape? rest)
  | c :: rest => do
    if c = '\\' then none
    return c.toNat :: (← unescape? rest)

/-- Whether a code number is the first half of a surrogate pair. -/
def isLeading (code : Nat) : Bool := 0xD800 ≤ code && code < 0xDC00

/-- Whether a code number is the second half of a surrogate pair. -/
def isTrailing (code : Nat) : Bool := 0xDC00 ≤ code && code < 0xE000

/-- Joins surrogate pairs and turns code numbers into characters.  A half without its
partner makes this fail. -/
def joinPairs? : List Nat → Option (List Char)
  | [] => some []
  | [code] =>
    if isLeading code || isTrailing code then none else some [Char.ofNat code]
  | code :: next :: rest =>
    if isLeading code then
      if isTrailing next then
        (joinPairs? rest).map
          (Char.ofNat (0x10000 + (code - 0xD800) * 0x400 + (next - 0xDC00)) :: ·)
      else none
    else if isTrailing code then none
    else (joinPairs? (next :: rest)).map (Char.ofNat code :: ·)

/-! ### Leaves -/

/-- A leaf of a JSON document. -/
inductive Leaf where
  | null
  | bool (value : Bool)
  /-- A number, as written. -/
  | number (value : Numeral)
  | text (value : String)
  /-- A string with half a surrogate pair, which no text can hold. -/
  | unpaired
deriving DecidableEq, Repr

/-- The leaf that a string literal stands for, given the characters between its quotes. -/
def decodeText? (body : List Char) : Option Leaf :=
  (unescape? body).map fun codes =>
    match joinPairs? codes with
    | some cs => .text (String.ofList cs)
    | none => .unpaired

end Intake.Json
