import Intake.Value
import Intake.Document.Dialect
import Intake.Json.Reader

/-!
# Records in JSON

Field values are read from JSON without any schema: lists become lists, and every leaf
becomes the scalar of its kind.  A number is an integer if it is written without fraction and
exponent, fits 64 bits, and is not a negative zero; otherwise it is a float.  Objects are no
field values.
-/

namespace Intake.Json

/-- How deeply the lists and objects of a text may be nested. -/
def maxDepth : Nat := 127

/-- The scalar of a number literal, if it is not too large. -/
def Numeral.scalar? (n : Numeral) : Option Scalar :=
  match n.whole?.bind Number.int64? with
  | some i => some (.int i)
  | none => n.float?.map .float

def Leaf.scalar? : Leaf → Option Scalar
  | .null => some .null
  | .bool b => some (.bool b)
  | .number n => n.scalar?
  | .text s => some (.text s)
  | .unpaired => none

mutual

def value? : Document Leaf → Option Value
  | .leaf a => a.scalar?.map .scalar
  | .list items => (values? items).map .list
  | .object _ => none

def values? : List (Document Leaf) → Option (List Value)
  | [] => some []
  | d :: rest => do return (← value? d) :: (← values? rest)

end

/-- Reads a document that is not nested too deeply. -/
def readShallow? (s : String) : Option (Document Leaf) :=
  (read? s).filter fun d => d.depth ≤ maxDepth

def readValue? (s : String) : Option Value :=
  (readShallow? s).bind value?

/-- Reads a record; of repeated fields the last counts. -/
def readRecord? (s : String) : Option Record :=
  (readShallow? s).bind (Dialect.json.dict? Dialect.json.text? value?)

end Intake.Json
