import Intake.Dict
import Intake.Text.Trim
import Intake.Number.Whole
import Intake.Number.Positional

/-!
# Field values

A form field arrives as a scalar or as a list, and lists may be nested.

* `Scalar` is a value without parts, and `Scalar.text?` the text it is checked as.
* `Value` is a tree of scalars; `Value.map` changes every scalar and keeps the shape.
* `Value.same` is equality as the program sees it: numbers that are not a number differ from
  themselves, the two zeros are equal, and an integer never equals a float.
* `Record` holds the fields of a form by name.
-/

namespace Intake

/-- A field value without parts. -/
inductive Scalar where
  /-- Nothing: the same as a missing field. -/
  | null
  | bool (value : Bool)
  /-- A whole number of 64 bits. -/
  | int (value : Int64)
  | float (value : Float)
  | text (value : String)

namespace Scalar

/-- The text that a scalar is checked and cleaned as.  True reads as `1` and false as the
empty text; null has no text. -/
def text? : Scalar → Option String
  | null => none
  | bool b => some (if b then "1" else "")
  | int n => some (String.ofList (Number.decimal n.toInt))
  | float x => some (String.ofList (Number.floatText x))
  | text s => some s

/-- Equality of scalars of one kind; floats are compared as numbers. -/
def same : Scalar → Scalar → Bool
  | null, null => true
  | bool a, bool b => a == b
  | int a, int b => a == b
  | float a, float b => a == b
  | text a, text b => a == b
  | _, _ => false

end Scalar

inductive Value where
  | scalar (value : Scalar)
  | list (items : List Value)

namespace Value

/-- The value that counts as missing. -/
@[match_pattern]
def null : Value := .scalar .null

@[match_pattern]
def text (s : String) : Value := .scalar (.text s)

instance : Inhabited Value := ⟨null⟩

def isNull : Value → Bool
  | .scalar .null => true
  | _ => false

def isList : Value → Bool
  | .scalar _ => false
  | .list _ => true

/-- The text of a scalar other than null. -/
def text? : Value → Option String
  | .scalar a => a.text?
  | .list _ => none

mutual

/-- Changes every scalar of a value. -/
def map (f : Scalar → Scalar) : Value → Value
  | .scalar a => .scalar (f a)
  | .list items => .list (mapItems f items)

def mapItems (f : Scalar → Scalar) : List Value → List Value
  | [] => []
  | v :: rest => v.map f :: mapItems f rest

end

mutual

/-- Whether two values have the same shape and the same scalars. -/
def same : Value → Value → Bool
  | .scalar a, .scalar b => a.same b
  | .list xs, .list ys => sameItems xs ys
  | _, _ => false

def sameItems : List Value → List Value → Bool
  | [], [] => true
  | x :: xs, y :: ys => x.same y && sameItems xs ys
  | _, _ => false

end

/-- Trims blanks off a scalar if it is text. -/
def trimScalar : Scalar → Scalar
  | .text s => .text (Text.trimBlank s)
  | a => a

/-- Trims blanks off every text in a value. -/
def trim (v : Value) : Value :=
  v.map trimScalar

end Value

/-- The fields of a form by name. -/
abbrev Record := Dict Value

/-- The value of a field that is present and not null. -/
def Record.present? (r : Record) (field : String) : Option Value :=
  (r.get? field).filter fun v => !v.isNull

end Intake
