import Intake.Text.Split

/-!
# E-mail addresses

An address is a local part, an `@`, and a domain.  The local part is one or more words
joined by single dots.  The domain is two or more labels joined by single dots, of which the
last consists of letters only.

* `isWord`, `isLabel` and `isTopLabel` are the parts.
* `isAddress` adds the limits on the size of the whole, which count UTF-8 bytes.
-/

namespace Intake.Email

/-- The punctuation that may stand in the words of a local part. -/
def wordMarks : List Char :=
  "!#$%&'*+/=?^_`\x7b|\x7d~-".toList

/-- Whether a text is a word of a local part: letters, digits and some punctuation. -/
def isWord (cs : List Char) : Bool :=
  !cs.isEmpty && cs.all fun c => c.isAlphanum || wordMarks.contains c

/-- Whether a text is a label of a domain: up to 63 letters, digits and hyphens, with no
hyphen at either end. -/
def isLabel (cs : List Char) : Bool :=
  !cs.isEmpty && cs.length ≤ 63 && cs.all (fun c => c.isAlphanum || c == '-')
    && cs.head? != some '-' && cs.getLast? != some '-'

/-- Whether a text is the last label of a domain: 2 to 63 letters. -/
def isTopLabel (cs : List Char) : Bool :=
  2 ≤ cs.length && cs.length ≤ 63 && cs.all Char.isAlpha

def isLocal (cs : List Char) : Bool :=
  (cs.splitOn '.').all isWord

def isDomain (cs : List Char) : Bool :=
  match (cs.splitOn '.').reverse with
  | top :: label :: labels => isTopLabel top && (label :: labels).all isLabel
  | _ => false

def maxSize : Nat := 320

def maxLocalSize : Nat := 64

/-- Whether a text is an e-mail address. -/
def isAddress (s : String) : Bool :=
  match Text.cutLast? '@' s.toList with
  | none => false
  | some (localPart, domain) =>
    s.utf8ByteSize ≤ maxSize && (String.ofList localPart).utf8ByteSize ≤ maxLocalSize
      && isLocal localPart && isDomain domain

end Intake.Email
