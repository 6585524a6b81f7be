/-!
# Characters with positions

In YAML it matters where a character stands: indentation nests blocks, and a key must be
followed by its colon on the same line and not too far away.  So a text is first turned
into glyphs, characters that know their position.

* `glyphs?` refuses texts with control characters and takes off a byte-order mark.
* All spellings of a line feed become one glyph, `\n`; the two separators of Unicode stay.
* The end of the list is the end of the text; blanks, breaks and the end all separate words
  (`isApart`).
-/

namespace Intake.Yaml

/-- A character and where it stands. -/
structure Glyph where
  char : Char
  /-- How many characters stand before it. -/
  index : Nat
  /-- How many lines stand before its own. -/
  line : Nat
  /-- How many characters stand before it on its line. -/
  column : Nat

/-- Whether a character may occur in a text at all. -/
def isPermitted (c : Char) : Bool :=
  ['\t', '\n', '\r', '\u0085'].contains c || (0x20 ≤ c.toNat && c.toNat ≤ 0x7E)
    || (0xA0 ≤ c.toNat && c.toNat ≤ 0xFFFD) || 0x10000 ≤ c.toNat

/-- Whether a character separates words on a line. -/
def isBlank (c : Char) : Bool :=
  c == ' ' || c == '\t'

/-- Whether the character of a glyph ends a line. -/
def isBreak (c : Char) : Bool :=
  c == '\n' || c == '\u2028' || c == '\u2029'

def byteOrderMark : Char := '\uFEFF'

/-- The glyphs of a text from a given position on. -/
def placeFrom (index line column : Nat) : List Char → List Glyph
  | [] => []
  | '\r' :: '\n' :: rest => ⟨'\n', index, line, column⟩ :: placeFrom (index + 2) (line + 1) 0 rest
  | c :: rest =>
    let shown := if c == '\r' || c == '\u0085' then '\n' else c
    ⟨shown, index, line, column⟩ ::
      if isBreak shown then placeFrom (index + 1) (line + 1) 0 rest
      else placeFrom (index + 1) line (column + 1) rest

/-- The glyphs of a text, if all its characters are permitted. -/
def glyphs? (cs : List Char) : Option (List Glyph) :=
  if cs.all isPermitted then
    some (placeFrom 0 0 0 (if cs.head? == some byteOrderMark then cs.tail else cs))
  else none

/-- Whether the text goes on with something that separates words, or ends. -/
def isApart : List Glyph → Bool
  | [] => true
  | g :: _ => isBlank g.char || isBreak g.char

def startsWith (c : Char) : List Glyph → Bool
  | [] => false
  | g :: _ => g.char == c

/-- Whether a line starts here with three equal characters that stand alone. -/
def startsMarker (c : Char) : List Glyph → Bool
  | a :: b :: d :: rest =>
    a.column == 0 && [a, b, d].all (·.char == c) && isApart rest
  | _ => false

def startsBoundary (gs : List Glyph) : Bool :=
  startsMarker '-' gs || startsMarker '.' gs

/-- The characters that names of anchors and handles consist of. -/
def isNameChar (c : Char) : Bool :=
  c.isAlphanum || c == '_' || c == '-'

def span (p : Char → Bool) (gs : List Glyph) : String × List Glyph :=
  (String.ofList ((gs.takeWhile (p ·.char)).map (·.char)), gs.dropWhile (p ·.char))

/-- What follows blanks, a comment and the end of a line, if nothing else is left on it. -/
def skipRestOfLine? (gs : List Glyph) : Option (List Glyph) :=
  let shown := gs.dropWhile fun g => isBlank g.char
  let behind :=
    if startsWith '#' shown then shown.dropWhile fun g => !isBreak g.char else shown
  match behind with
  | [] => some []
  | g :: rest => if isBreak g.char then some rest else none

end Intake.Yaml
