import Intake.Rule.Chain
import Intake.Rule.Standard
import Intake.Message.Template
import Intake.Message.Wording

/-!
# Examining records

An examiner checks the fields of a record against chains of rules.

* `Examiner.compile` reads the chains of all fields.  A strict examiner also refuses rules
  that it does not know and rules with too few parameters.
* `Examiner.examine` checks chains and gives one message for every field that fails: that of
  the last rule that fails.  Unknown rules are skipped.
* `Examiner.validate` does both.
-/

namespace Intake

open Rule Message

abbrev Failures := Dict String

/-- What chains of rules are checked with. -/
structure Examiner where
  registry : Registry
  /-- Whether unknown rules and missing parameters are problems. -/
  strict : Bool

namespace Examiner

/-! ### Compiling -/

/-- The problem that a strict examiner has with the use of a rule. -/
def callProblem? (x : Examiner) (field : String) (call : Call) : Option Problem :=
  match x.registry.get? call.name with
  | none => some (.unknownRule field call.name)
  | some rule =>
    if call.params.length < rule.arity then
      some (.missingParams field call.name rule.arity call.params.length)
    else none

/-- The first problem that the examiner has with a chain. -/
def chainProblem? (x : Examiner) (chain : Chain) : Option Problem :=
  if x.strict then chain.calls.findSome? (x.callProblem? chain.field) else none

/-- Reads the chain of a field and looks for problems with it. -/
def compileField (x : Examiner) (field chain : String) : Except Problem Chain := do
  let chain ← Chain.read field chain
  match x.chainProblem? chain with
  | some problem => .error problem
  | none => .ok chain

/-- Reads the chains of all fields, in field order; the first problem ends this. -/
def compile (x : Examiner) (chains : Dict String) : Except Problem (List Chain) :=
  chains.entries.mapM fun e => x.compileField e.1 e.2

/-! ### Checking -/

/-- The message for a rule that no template is known for. -/
def fallback : String := "The %s is invalid"

/-- The message of a rule that failed on a field. -/
def messageFor (x : Examiner) (w : Wording) (field : String) (call : Call) : String :=
  fill ((w.template? x.registry field call.name).getD fallback) (call.messageArgs field)

/-- Whether a rule is known and fails on a subject. -/
def rejects (x : Examiner) (subject : Subject) (call : Call) : Bool :=
  match x.registry.get? call.name with
  | some rule => !rule.check subject call.params
  | none => false

/-- Notes the message of a rule if it fails, in place of an earlier one. -/
def examineCall (x : Examiner) (subject : Subject) (w : Wording) (failures : Failures)
    (call : Call) : Failures :=
  if x.rejects subject call then
    failures.insert subject.field (x.messageFor w subject.field call)
  else failures

def examineChain (x : Examiner) (today : Date) (r : Record) (w : Wording) (failures : Failures)
    (chain : Chain) : Failures :=
  chain.calls.foldl (x.examineCall ⟨r, chain.field, today⟩ w) failures

/-- Checks chains on a day and gives the messages of the fields that failed. -/
def examine (x : Examiner) (today : Date) (r : Record) (chains : List Chain) (w : Wording) :
    Failures :=
  chains.foldl (x.examineChain today r w) ∅

/-- Reads the chains of all fields and checks them. -/
def validate (x : Examiner) (today : Date) (r : Record) (chains : Dict String) (w : Wording) :
    Except Problem Failures := do
  return x.examine today r (← x.compile chains) w

end Examiner

end Intake
