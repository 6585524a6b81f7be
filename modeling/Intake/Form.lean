import Intake.Pipeline

/-!
# Forms

A form is everything that is configured for one kind of record: the rule strings of its
fields, its wording, its cleaning policy, and whether rules are taken strictly.

* `Form.findings` lists everything wrong with the rule strings, tags first, and
  `Form.check` fails if there is anything.
* `Form.run` cleans and examines a record, and `Form.apply` gives its failures alone.  They
  can only fail for a form that has findings.
-/

namespace Intake

open Rule Message

/-- The configuration of one kind of record. -/
structure Form where
  /-- The combined rule strings. -/
  fields : Dict String
  wording : Wording := .empty
  policy : Cleaning.Policy := {}
  /-- Whether unknown rules and missing parameters are problems. -/
  strict : Bool := false
deriving DecidableEq

inductive Finding where
  | tag (field : String) (problem : Problem)
  | chain (problem : Problem)
deriving DecidableEq, Repr

def Finding.message : Finding → String
  | .tag field problem => "Field '" ++ field ++ "': " ++ problem.message
  | .chain problem => problem.message

/-- The text of the problem with a form that has findings. -/
def invalidMessage (findings : List Finding) : String :=
  "Invalid rule set: Rule set validation failed:\n"
    ++ String.intercalate "\n" (findings.map Finding.message)

/-- The problem in a result, if it failed. -/
def problem? {α : Type} : Except Problem α → Option Problem
  | .error problem => some problem
  | .ok _ => none

namespace Form

variable [PhoneDirectory]

def examiner (f : Form) : Examiner :=
  ⟨.standard, f.strict⟩

def pipeline (f : Form) : Pipeline :=
  ⟨f.policy, f.examiner⟩

def tagFindings (f : Form) : List Finding :=
  (tagsOf f.fields).entries.filterMap fun e =>
    (problem? (Cleaning.Tag.read e.2)).map (.tag e.1)

/-- The findings about chains, each compiled alone, in field order. -/
def chainFindings (f : Form) : List Finding :=
  (chainsOf f.fields).entries.filterMap fun e =>
    (problem? (f.examiner.compile (Dict.ofList [e]))).map .chain

/-- Everything wrong with a form. -/
def findings (f : Form) : List Finding :=
  f.tagFindings ++ f.chainFindings

/-- Fails with all findings, if there are any. -/
def check (f : Form) : Except (List Finding) Unit :=
  if f.findings = [] then .ok () else .error f.findings

/-- The chains of all fields that have one. -/
def chains (f : Form) : Except Problem (List Chain) :=
  (chainsOf f.fields).entries.mapM fun e => Chain.read e.1 e.2

/-- Cleans and examines a record on a day. -/
def run (f : Form) (today : Date) (r : Record) : Except Problem Outcome :=
  f.pipeline.run today r f.fields f.wording

/-- Cleans and examines a record on a day and gives the failures alone. -/
def apply (f : Form) (today : Date) (r : Record) : Except Problem Failures := do
  return (← f.run today r).failures

end Form

end Intake
