/-!
# Blank characters and trimming

Two sets of blank characters are in use, and they differ.

* `isWhite` is the Unicode property `White_Space`.  Rule strings, tags, dates and regions
  are trimmed by it (`trim`).
* `isBlank` is a set of six control and space characters.  Field values are trimmed by it
  (`trimBlank`), so a no-break space inside a form field survives.

Both trims are `strip`, which removes a class of characters from both ends of a text.
-/

namespace Intake.Text

/-- Removes the characters of a class from both ends. -/
def strip (p : Char → Bool) (cs : List Char) : List Char :=
  ((cs.dropWhile p).reverse.dropWhile p).reverse

/-! ### Unicode white space -/

/-- The code points with the Unicode property `White_Space`, as ranges from first to last. -/
def whiteRanges : List (Nat × Nat) :=
  [(0x9, 0xD), (0x20, 0x20), (0x85, 0x85), (0xA0, 0xA0), (0x1680, 0x1680), (0x2000, 0x200A),
    (0x2028, 0x2029), (0x202F, 0x202F), (0x205F, 0x205F), (0x3000, 0x3000)]

/-- Whether a character has the Unicode property `White_Space`. -/
def isWhite (c : Char) : Bool :=
  whiteRanges.any fun r => r.1 ≤ c.toNat && c.toNat ≤ r.2

def trim (s : String) : String :=
  String.ofList (strip isWhite s.toList)

/-! ### The six blanks of field values -/

/-- Space, tab, line feed, carriage return, NUL and vertical tab. -/
def blanks : List Char :=
  [' ', '\t', '\n', '\r', '\x00', '\x0B']

/-- Whether a character is one of the six blanks. -/
def isBlank (c : Char) : Bool :=
  blanks.contains c

def trimBlank (s : String) : String :=
  String.ofList (strip isBlank s.toList)

end Intake.Text
