import Intake.Form
import Intake.Message.Reading
import Intake.Json.Reader
import Intake.Json.Writer
import Intake.Yaml.Reader

/-!
# Loading and saving forms

A form is written as a document with the sections `fields`, `messages`, `sanitizer` and
`strict_rules`, of which only the first must be there, and loaded from JSON or YAML.
Sections of other names do not matter.  A form that is loaded has been checked.

* `Form.ofDocument?` reads a form, in either dialect.
* `Form.load` reads and checks a text, and says what went wrong by `LoadError`.
* `Form.toDocument` writes a form with all its sections, and `Form.save` as JSON text.
-/

namespace Intake

open Message

/-! ### Reading -/

/-- The sections of a form, in their fixed order. -/
def formSections : List String := ["fields", "messages", "sanitizer", "strict_rules"]

/-- The sections of a cleaning policy, in their fixed order. -/
def policySections : List String := ["default_tag", "trim"]

variable {α : Type}

def Cleaning.Tag.ofDocument? (d : Dialect α) (document : Document α) : Option Cleaning.Tag :=
  (Dialect.leaf? d.text? document).bind fun name => (Cleaning.Tag.read name).toOption

def Cleaning.Policy.ofDocument? (d : Dialect α) (document : Document α) :
    Option Cleaning.Policy := do
  let sections ← d.sections? policySections document
  let defaultTag ← Dialect.section? sections "default_tag" .text (Tag.ofDocument? d)
  let trims ← Dialect.section? sections "trim" true (Dialect.leaf? d.bool?)
  return { defaultTag, trims }

namespace Form

def ofDocument? (d : Dialect α) (document : Document α) : Option Form := do
  let sections ← d.sections? formSections document
  let fields ← (sections.lookup "fields").bind d.texts?
  let wording ← Dialect.section? sections "messages" .empty (Wording.ofDocument? d)
  let policy ← Dialect.section? sections "sanitizer" {} (Cleaning.Policy.ofDocument? d)
  let strict ← Dialect.section? sections "strict_rules" false (Dialect.leaf? d.bool?)
  return { fields, wording, policy, strict }

/-- Where a form is loaded from. -/
inductive Source where
  | json (text : String)
  | yaml (text : String)
  /-- A file with YAML text; without text if the file cannot be read. -/
  | file (path : String) (text : Option String)

/-- Why a form cannot be loaded. -/
inductive LoadError where
  /-- The file cannot be read. -/
  | missing (path : String)
  | unreadable (source : Source)
  | invalid (findings : List Finding)

def LoadError.message : LoadError → String
  | missing path => "Failed to read rule set file " ++ path
  | unreadable (.json _) => "Failed to parse JSON rule set"
  | unreadable (.yaml _) => "Failed to parse YAML rule set"
  | unreadable (.file path _) => "Failed to parse rule set file " ++ path
  | invalid findings => invalidMessage findings

def ofJson? (text : String) : Option Form :=
  (Json.read? text).bind (ofDocument? .json)

def ofYaml? (text : String) : Option Form :=
  (Yaml.read? text).bind (ofDocument? .yaml)

/-- Reads a form without checking it. -/
def Source.read (source : Source) : Except LoadError Form :=
  let orUnreadable := fun form => Option.elim form (.error (.unreadable source)) .ok
  match source with
  | .json text => orUnreadable (ofJson? text)
  | .yaml text => orUnreadable (ofYaml? text)
  | .file _ (some text) => orUnreadable (ofYaml? text)
  | .file path none => .error (.missing path)

/-- Reads and checks a form. -/
def load [PhoneDirectory] (source : Source) : Except LoadError Form := do
  let form ← source.read
  match form.check with
  | .ok () => .ok form
  | .error findings => .error (.invalid findings)

/-! ### Writing -/

/-- The document of a form, with all sections. -/
def toDocument (f : Form) : Document Json.Leaf :=
  .object
    [(.text "fields", textsDocument f.fields),
     (.text "messages", f.wording.toDocument),
     (.text "sanitizer", .object
       [(.text "default_tag", .leaf (.text f.policy.defaultTag.name)),
        (.text "trim", .leaf (.bool f.policy.trims))]),
     (.text "strict_rules", .leaf (.bool f.strict))]

def save (f : Form) : String :=
  Json.write f.toDocument

end Form

end Intake
