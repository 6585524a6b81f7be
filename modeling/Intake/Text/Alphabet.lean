/-!
# Alphabets of allowed characters

A field can be reduced to the characters that make sense in it: those of an address, of a
link, or of a number.  An alphabet is an allow-list inside ASCII, and `Alphabet.keep` drops
everything else without replacing it.
-/

namespace Intake.Text

/-- The classes of characters a text can be reduced to. -/
inductive Alphabet where
  /-- Letters, digits and the punctuation of e-mail addresses. -/
  | address
  /-- Letters, digits and the punctuation of links. -/
  | link
  /-- Digits and signs. -/
  | integer
  /-- Digits, signs and the decimal point. -/
  | decimal
deriving DecidableEq, Repr

namespace Alphabet

def addressMarks : List Char :=
  "!#$%&'*+-=?^_`\x7b|\x7d~@.[]".toList

def linkMarks : List Char :=
  "$-_.+!*'(),\x7b\x7d|\\^~[]`<>#%\";/?:@&=".toList

/-- Whether a character belongs to the alphabet.  No character outside ASCII does. -/
def allows : Alphabet → Char → Bool
  | address, c => c.isAlphanum || addressMarks.contains c
  | link, c => c.isAlphanum || linkMarks.contains c
  | integer, c => c.isDigit || c == '+' || c == '-'
  | decimal, c => c.isDigit || c == '+' || c == '-' || c == '.'

/-- The text with every character outside the alphabet dropped. -/
def keep (a : Alphabet) (s : String) : String :=
  String.ofList (s.toList.filter a.allows)

end Alphabet

end Intake.Text
