import Intake.Document.Dialect
import Intake.Message.Wording

/-!
# Wordings in documents

A wording is written as one object.  A string under a name words the rule of this name for
all fields; an object under a name words the rules in it for the field of this name.
-/

namespace Intake.Message

variable {α : Type}

def Entry.ofDocument? (d : Dialect α) : Document α → Option Entry
  | .leaf a => (d.string? a).map .rule
  | .object members =>
    (d.dict? d.string? (Dialect.leaf? d.string?) (.object members)).map .field
  | .list _ => none

def Wording.ofDocument? (d : Dialect α) (document : Document α) : Option Wording :=
  (d.dict? d.text? (Entry.ofDocument? d) document).map .ofEntries

/-- Writes a map of texts as a JSON object. -/
def textsDocument (texts : Dict String) : Document Json.Leaf :=
  .object (texts.entries.map fun e => (.text e.1, .leaf (.text e.2)))

def Entry.toDocument : Entry → Document Json.Leaf
  | .rule template => .leaf (.text template)
  | .field templates => textsDocument templates

def Wording.toDocument (w : Wording) : Document Json.Leaf :=
  .object (w.toEntries.entries.map fun e => (.text e.1, e.2.toDocument))

end Intake.Message
