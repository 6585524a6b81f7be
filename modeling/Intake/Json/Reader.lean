import Intake.Json.Leaf
import Intake.Document.Assembly

/-!
# Reading JSON

`Json.read?` reads a JSON text into a document.  The text is cut into tokens by a machine
over single characters (`Scan`), and the tokens are assembled with strings as the only keys.

Literals and numbers are scanned as words, which are as long as possible.  That is safe
because JSON never lets two words touch.
-/

namespace Intake.Json

open Document

/-- Where the scan stands.  What has been read of a token is kept backwards. -/
inductive Scan where
  | between
  | word (read : List Char)
  | text (read : List Char)
  | escape (read : List Char)

def isSpace (c : Char) : Bool :=
  [' ', '\t', '\n', '\r'].contains c

/-- Whether a character may stand in a literal or number. -/
def isWordChar (c : Char) : Bool :=
  c.isAlphanum || ['+', '-', '.'].contains c

def punctuation? : Char → Option (Token Leaf)
  | '[' => some .openList
  | ']' => some .closeList
  | '\x7b' => some .openObject
  | '\x7d' => some .closeObject
  | ',' => some .comma
  | ':' => some .colon
  | _ => none

def word? (cs : List Char) : Option (Token Leaf) :=
  if cs = "null".toList then some (.leaf .null)
  else if cs = "true".toList then some (.leaf (.bool true))
  else if cs = "false".toList then some (.leaf (.bool false))
  else (readNumeral? cs).map (.leaf <| .number ·)

namespace Scan

/-- Reads a character between two tokens. -/
def fresh? (c : Char) : Option (List (Token Leaf) × Scan) :=
  if isSpace c then some ([], .between)
  else if c = '\"' then some ([], .text [])
  else if isWordChar c then some ([], .word [c])
  else (punctuation? c).map fun token => ([token], .between)

/-- Reads a character: the tokens it completes, and the next state. -/
def step? : Scan → Char → Option (List (Token Leaf) × Scan)
  | .between, c => fresh? c
  | .word read, c =>
    if isWordChar c then some ([], .word (c :: read))
    else do
      let token ← word? read.reverse
      let (tokens, next) ← fresh? c
      return (token :: tokens, next)
  | .text read, c =>
    if c = '\"' then (decodeText? read.reverse).map fun a => ([.leaf a], .between)
    else if c.toNat < 0x20 then none
    else if c = '\\' then some ([], .escape read)
    else some ([], .text (c :: read))
  | .escape read, c =>
    if c.toNat < 0x20 then none else some ([], .text (c :: '\\' :: read))

/-- The tokens completed by the end of the text. -/
def finish? : Scan → Option (List (Token Leaf))
  | .between => some []
  | .word read => (word? read.reverse).map ([·])
  | .text _ => none
  | .escape _ => none

/-- The tokens of the rest of a text. -/
def tokens? : Scan → List Char → Option (List (Token Leaf))
  | s, [] => s.finish?
  | s, c :: rest => do
    let (tokens, next) ← s.step? c
    return tokens ++ (← tokens? next rest)

end Scan

def isText : Leaf → Bool
  | .text _ => true
  | .unpaired => true
  | _ => false

/-- The document that a JSON text holds, if it is one. -/
def read? (s : String) : Option (Document Leaf) :=
  (Scan.tokens? .between s.toList).bind (assemble? isText)

end Intake.Json
