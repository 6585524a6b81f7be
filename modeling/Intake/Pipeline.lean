import Intake.Cleaning.Policy
import Intake.Examiner

/-!
# Cleaning and examining in one go

The rule string of a field can combine a cleaning tag with a chain of rules, as in
`string|required|min:3`: what stands before the first `|` is the tag.  A rule string without
`|` is only a tag, and its field is not examined.

`Pipeline.run` cleans a record by the tags and examines the cleaned record by the chains.
All rule strings are looked at before the record is touched, chains before tags.
-/

namespace Intake

open Message

/-! ### Combined rule strings -/

/-- The tag in a combined rule string. -/
def tagPart (rules : String) : String :=
  match Text.cut? '|' rules.toList with
  | some (tag, _) => Text.trim (String.ofList tag)
  | none => Text.trim rules

/-- The chain in a combined rule string, if it has one. -/
def chainPart? (rules : String) : Option String :=
  (Text.cut? '|' rules.toList).map fun parts => String.ofList parts.2

def tagsOf (fields : Dict String) : Dict String :=
  fields.map fun _ rules => tagPart rules

/-- The chains of the fields that have one. -/
def chainsOf (fields : Dict String) : Dict String :=
  fields.filterMap fun _ rules => chainPart? rules

/-! ### Running -/

structure Outcome where
  record : Record
  failures : Failures

def Outcome.isValid (o : Outcome) : Bool :=
  o.failures.isEmpty

/-- How records are cleaned and examined. -/
structure Pipeline where
  policy : Cleaning.Policy
  examiner : Examiner

namespace Pipeline

/-- Cleans and examines a record on a day. -/
def run (p : Pipeline) (today : Date) (r : Record) (fields : Dict String) (w : Wording) :
    Except Problem Outcome := do
  let chains ← p.examiner.compile (chainsOf fields)
  let cleaned ← p.policy.clean (tagsOf fields) r
  return ⟨cleaned, p.examiner.examine today cleaned chains w⟩

/-- The default policy with a lenient examiner of the standard rules. -/
def standard [PhoneDirectory] : Pipeline :=
  ⟨{}, ⟨.standard, false⟩⟩

end Pipeline

end Intake
