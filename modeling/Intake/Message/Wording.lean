import Intake.Rule.Registry

/-!
# Wordings

A form can word the messages of rules in its own way: for all fields, or for one field,
which takes precedence.

* `Wording` holds both kinds of templates.  `Wording.defaults` merges those for all fields
  into the default messages, and `Wording.template?` picks the one that applies.
* `Wording.toEntries` and `Wording.ofEntries` convert to and from the single map that
  wordings are written as, in which a name stands either for a rule or for a field.  If a
  rule and a field share their name, only the field is written.
-/

namespace Intake.Message

/-- The templates that a form uses in place of the default messages. -/
structure Wording where
  /-- Templates for a rule on all fields. -/
  rules : Dict String
  /-- Templates for rules on one field. -/
  fields : Dict (Dict String)
deriving DecidableEq

/-- An entry of a wording as it is written. -/
inductive Entry where
  /-- A template for a rule on all fields. -/
  | rule (template : String)
  /-- The templates for rules on one field. -/
  | field (templates : Dict String)
deriving DecidableEq

namespace Wording

def empty : Wording := ⟨∅, ∅⟩

/-- Words a rule for all fields. -/
def setRule (w : Wording) (rule template : String) : Wording :=
  { w with rules := w.rules.insert rule template }

/-- Words a rule for one field. -/
def setField (w : Wording) (field rule template : String) : Wording :=
  { w with fields :=
      w.fields.insert field (((w.fields.get? field).getD ∅).insert rule template) }

def isEmpty (w : Wording) : Bool :=
  w.rules.isEmpty && w.fields.isEmpty

/-- The template for a rule on one field. -/
def fieldTemplate? (w : Wording) (field rule : String) : Option String :=
  (w.fields.get? field).bind (·.get? rule)

/-- The default messages with the templates for rules on all fields in their place. -/
def defaults (w : Wording) (registry : Rule.Registry) : Dict String :=
  registry.messages.insertMany w.rules.entries

/-- The template that applies to a rule on a field: that of the field, else the default. -/
def template? (w : Wording) (registry : Rule.Registry) (field rule : String) :
    Option String :=
  w.fieldTemplate? field rule <|> (w.defaults registry).get? rule

/-- The rules that are worded: for all fields, then for each field. -/
def wordedRules (w : Wording) : List String :=
  w.rules.keys ++ w.fields.entries.flatMap fun e => e.2.keys

/-- The wording as a single map. -/
def toEntries (w : Wording) : Dict Entry :=
  (w.rules.map fun _ template => Entry.rule template).insertMany
    (w.fields.map fun _ templates => Entry.field templates).entries

/-- The wording that a single map stands for. -/
def ofEntries (entries : Dict Entry) : Wording where
  rules := entries.filterMap fun _ e =>
    match e with
    | .rule template => some template
    | .field _ => none
  fields := entries.filterMap fun _ e =>
    match e with
    | .rule _ => none
    | .field templates => some templates

end Wording

end Intake.Message
