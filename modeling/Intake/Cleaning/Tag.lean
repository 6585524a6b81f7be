import Intake.Value
import Intake.Problem
import Intake.Text.Alphabet
import Intake.Text.Markup

/-!
# Cleaning tags

A tag says what a field may hold and how its text is cleaned.

* `Tag.cleanText` cleans a text, `Tag.cleanse` all the scalars of a value.
* `Tag.fit?` also asks for the right shape: a list under the tags that want one, and no
  list under the others.  Null fits every tag.
* `Tag.read` finds the tag of a name.
-/

namespace Intake.Cleaning

/-- How a field is cleaned. -/
inductive Tag where
  /-- Text, from which markup is removed. -/
  | text
  | texts
  | email
  /-- Digits and signs. -/
  | int
  | ints
  /-- Digits, signs and points. -/
  | float
  | floats
  | url
deriving DecidableEq, Repr

namespace Tag

/-- All tags. -/
def all : List Tag := [text, texts, email, int, ints, float, floats, url]

/-- The name of a tag in rule strings. -/
def name : Tag → String
  | text => "string"
  | texts => "string[]"
  | email => "email"
  | int => "int"
  | ints => "int[]"
  | float => "float"
  | floats => "float[]"
  | url => "url"

/-- Whether a tag is for lists. -/
def wantsList : Tag → Bool
  | texts => true
  | ints => true
  | floats => true
  | _ => false

/-- The tag with a name, which may be surrounded by white space. -/
def read (s : String) : Except Problem Tag :=
  match all.find? (·.name == Text.trim s) with
  | some tag => .ok tag
  | none => .error (.unknownTag (Text.trim s))

/-- Cleans a text. -/
def cleanText : Tag → String → String
  | text, s => Text.Markup.visible s
  | texts, s => Text.Markup.visible s
  | email, s => Text.Alphabet.address.keep s
  | int, s => Text.Alphabet.integer.keep s
  | ints, s => Text.Alphabet.integer.keep s
  | float, s => Text.Alphabet.decimal.keep s
  | floats, s => Text.Alphabet.decimal.keep s
  | url, s => Text.Alphabet.link.keep s

/-- Turns a scalar into its cleaned text; null stays. -/
def cleanScalar (tag : Tag) (a : Scalar) : Scalar :=
  match a.text? with
  | some s => .text (tag.cleanText s)
  | none => .null

/-- Cleans every scalar of a value, whatever its shape. -/
def cleanse (tag : Tag) (v : Value) : Value :=
  v.map tag.cleanScalar

/-- Cleans a value whose shape suits the tag. -/
def fit? (tag : Tag) (v : Value) : Option Value :=
  if v.isNull || v.isList == tag.wantsList then some (tag.cleanse v) else none

end Tag

end Intake.Cleaning
