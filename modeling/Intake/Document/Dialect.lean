import Intake.Dict
import Intake.Document
import Intake.Json.Leaf
import Intake.Yaml.Leaf

/-!
# What leaves of documents stand for

The same form can be written in JSON or in YAML.  A dialect says what the leaves of a
notation stand for, so that forms are read in one way from both.

* `Dialect.texts?` reads a map of texts.
* `Dialect.sections?` splits a document into named sections and refuses repetitions.
-/

namespace Intake

/-- How the leaves of a notation are understood. -/
structure Dialect (α : Type) where
  /-- The text of a leaf, where only text can stand. -/
  text? : α → Option String
  /-- The text of a leaf, where strings are told apart from other values. -/
  string? : α → Option String
  /-- The truth value of a leaf. -/
  bool? : α → Option Bool
  /-- Whether a leaf stands for an object without members where only an object can stand. -/
  isMissing : α → Bool
  /-- Whether sections can be written as a list, in their fixed order. -/
  positional : Bool

namespace Dialect

/-- In JSON only strings are text. -/
def json : Dialect Json.Leaf where
  text?
    | .text s => some s
    | _ => none
  string?
    | .text s => some s
    | _ => none
  bool?
    | .bool b => some b
    | _ => none
  isMissing := fun _ => false
  positional := true

/-- In YAML every scalar is text where only text can stand, and an empty one can stand for
an object. -/
def yaml : Dialect Yaml.Leaf where
  text? := Yaml.Leaf.text?
  string? := Yaml.Leaf.string?
  bool? := Yaml.Leaf.bool?
  isMissing := Yaml.Leaf.isMissing
  positional := false

variable {α β : Type}

def member? (key? : α → Option String) (read? : Document α → Option β)
    (m : α × Document α) : Option (String × β) := do
  return (← key? m.1, ← read? m.2)

/-- Reads an object as a dictionary, of repeated keys the last. -/
def dict? (d : Dialect α) (key? : α → Option String) (read? : Document α → Option β) :
    Document α → Option (Dict β)
  | .object members => (members.mapM (member? key? read?)).map Dict.ofList
  | .leaf a => if d.isMissing a then some ∅ else none
  | .list _ => none

def leaf? (read? : α → Option β) : Document α → Option β
  | .leaf a => read? a
  | _ => none

def texts? (d : Dialect α) : Document α → Option (Dict String) :=
  d.dict? d.text? (leaf? d.text?)

/-- Splits a document into sections.  A section may have any name, but none of the given
names may occur twice. -/
def sections? (d : Dialect α) (names : List String) :
    Document α → Option (List (String × Document α))
  | .object members => do
    let sections ← members.mapM (member? d.text? some)
    if names.all fun name => sections.countP (·.1 == name) ≤ 1 then some sections else none
  | .list items =>
    if d.positional ∧ items.length ≤ names.length then some (names.zip items) else none
  | .leaf a => if d.isMissing a then some [] else none

/-- Reads a section; one that is not there has a default. -/
def section? (sections : List (String × Document α)) (name : String) (default : β)
    (read? : Document α → Option β) : Option β :=
  match sections.lookup name with
  | some document => read? document
  | none => some default

end Dialect

end Intake
