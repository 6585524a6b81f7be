import Intake.Cleaning.Tag

/-!
# Cleaning records

A policy cleans the fields of a record.  If no field has a tag, all fields are cleaned with
the default tag, whatever their shape.  If some field has one, only the fields with tags are
cleaned; a value that does not suit its tag becomes null, and the other fields pass as they
are.  At the end every text may be trimmed.
-/

namespace Intake.Cleaning

/-- How records are cleaned. -/
structure Policy where
  /-- The tag for all fields of a record when no field has a tag of its own. -/
  defaultTag : Tag := .text
  /-- Whether texts are trimmed after cleaning. -/
  trims : Bool := true
deriving DecidableEq, Repr

namespace Policy

/-- Trims a cleaned value if the policy says so. -/
def finish (p : Policy) (v : Value) : Value :=
  if p.trims then v.trim else v

/-- Cleans the value of a field under the tags of all fields. -/
def cleanField (p : Policy) (tags : Dict Tag) (field : String) (v : Value) : Value :=
  if tags.isEmpty then p.defaultTag.cleanse v
  else match tags.get? field with
    | some tag => (tag.fit? v).getD .null
    | none => v

/-- Cleans a record under known tags. -/
def cleanWith (p : Policy) (tags : Dict Tag) (r : Record) : Record :=
  r.map fun field v => p.finish (p.cleanField tags field v)

/-- Finds the tags of all fields; the first unknown name in field order is a problem. -/
def resolve (names : Dict String) : Except Problem (Dict Tag) :=
  names.mapExcept fun _ name => Tag.read name

/-- Cleans a record under the named tags.  All names are resolved before anything is
cleaned. -/
def clean (p : Policy) (names : Dict String) (r : Record) : Except Problem Record := do
  return p.cleanWith (← resolve names) r

end Policy

end Intake.Cleaning
