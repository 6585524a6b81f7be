import Intake.Phone.Plans
import Intake.Pipeline
import Intake.Rule.Stock
import Intake.Text.Quoted

/-!
# Sessions

A session keeps everything that examining a record depends on (rules, wording, policy,
strictness, day, record and rule strings) and changes it step by step.

* `Session.step` carries out a `Step` and gives the next session with a `Reply`.
* A step that fails replies with the problem and leaves the session as it was.
* `Session.replies` carries out steps one after the other.
-/

namespace Intake

open Rule Message

/-- Sessions have the small directory of telephone numbers at hand. -/
instance : PhoneDirectory := TwoCountries.directory

/-- Everything that examining a record depends on. -/
structure Session where
  registry : Registry
  wording : Wording
  policy : Cleaning.Policy
  strict : Bool
  /-- The day that date rules compare with. -/
  today : Date
  record : Record
  /-- The rule string of each field. -/
  fields : Dict String

inductive Step where
  | useRegistry (registry : Registry)
  | define (name : String) (rule : Definition)
  | copyRule (name copy : String)
  | describe (name message : String)
  | describeRule (name : String)
  | listMessages
  | summarize
  /-- Replaces the wording by one that has been read, if it could be. -/
  | useWording (wording : Option Wording)
  | wordRule (rule template : String)
  | wordField (field rule template : String)
  | findTemplate (field rule : String)
  | setStrict (strict : Bool)
  | setToday (today : Date)
  /-- Replaces the policy by one with a default tag and trimming. -/
  | setPolicy (defaultTag : Option String) (trims : Option Bool)
  | useRecord (record : Record)
  | putField (field : String) (value : Value)
  | dropField (field : String)
  | useRules (fields : Dict String)
  | putRules (field rules : String)
  | compile
  | validate
  /-- Reads the rule strings leniently and checks them. -/
  | examine
  | clean (tags : Dict String)
  /-- Cleans and examines by combined rule strings, and may keep the cleaned record. -/
  | filter (keep : Bool)
  | checkRule (rule field : String) (params : List Param)

structure RuleInfo where
  message : Option String
  rule : Option Definition

inductive Reply where
  | nothing
  | unreadable
  | flag (value : Bool)
  | count (value : Nat)
  | summary (text : String)
  | names (names : List String)
  /-- Texts by name: default messages, or the failures of fields. -/
  | texts (texts : Dict String)
  | rule (info : RuleInfo)
  | wording (wording : Wording)
  /-- The template of a field alone, and the one that applies in the end. -/
  | template (own effective : Option String)
  | policy (policy : Cleaning.Policy)
  | record (record : Record)
  /-- The value that a field had before. -/
  | value (value : Value)
  | chains (chains : List Chain)
  | outcome (outcome : Outcome)
  | problem (problem : Problem)

def Rule.Definition.summary (d : Definition) : String :=
  "RuleDefinition \x7b message: " ++ Text.quoted d.message ++ ", arity: " ++ Nat.repr d.arity
    ++ ", .. \x7d"

def Rule.Registry.summary (r : Registry) : String :=
  "RuleRegistry \x7b rules: [" ++ String.intercalate ", " (r.names.map Text.quoted)
    ++ "], .. \x7d"

namespace Session

/-- The standard rules and defaults, with nothing to examine. -/
def start (today : Date) : Session where
  registry := .standard
  wording := .empty
  policy := {}
  strict := false
  today := today
  record := ∅
  fields := ∅

def examiner (s : Session) : Examiner :=
  ⟨s.registry, s.strict⟩

/-- Replies with the problem of a failure, or goes on with the result. -/
def orProblem {α : Type} (s : Session) (result : Except Problem α)
    (next : α → Session × Reply) : Session × Reply :=
  match result with
  | .ok a => next a
  | .error problem => (s, .problem problem)

def withRegistry (s : Session) (r : Registry) : Session × Reply :=
  ({ s with registry := r }, .names r.names)

def withWording (s : Session) (w : Wording) : Session × Reply :=
  ({ s with wording := w }, .wording w)

def withRules (s : Session) (fields : Dict String) : Session × Reply :=
  ({ s with fields := fields }, .count fields.size)

def step (s : Session) : Step → Session × Reply
  | .useRegistry registry => s.withRegistry registry
  | .define name rule => s.withRegistry (s.registry.define name rule)
  | .copyRule name copy =>
    match s.registry.get? name with
    | some rule => s.withRegistry (s.registry.define copy rule)
    | none => (s, .nothing)
  | .describe name message =>
    let registry := s.registry.describe name message
    ({ s with registry }, .count registry.messages.size)
  | .describeRule name => (s, .rule ⟨s.registry.message? name, s.registry.get? name⟩)
  | .listMessages => (s, .texts s.registry.messages)
  | .summarize => (s, .summary s.registry.summary)
  | .useWording (some wording) => s.withWording wording
  | .useWording none => (s, .unreadable)
  | .wordRule rule template => s.withWording (s.wording.setRule rule template)
  | .wordField field rule template => s.withWording (s.wording.setField field rule template)
  | .findTemplate field rule =>
    (s, .template (s.wording.fieldTemplate? field rule)
      (s.wording.template? s.registry field rule))
  | .setStrict strict => ({ s with strict }, .flag strict)
  | .setToday today => ({ s with today }, .nothing)
  | .setPolicy defaultTag trims =>
    s.orProblem (defaultTag.elim (.ok .text) Cleaning.Tag.read) fun tag =>
      let policy : Cleaning.Policy := ⟨tag, trims.getD true⟩
      ({ s with policy }, .policy policy)
  | .useRecord record => ({ s with record }, .record record)
  | .putField field value =>
    ({ s with record := s.record.insert field value }, .value ((s.record.get? field).getD .null))
  | .dropField field =>
    ({ s with record := s.record.erase field }, .value ((s.record.get? field).getD .null))
  | .useRules fields => s.withRules fields
  | .putRules field rules => s.withRules (s.fields.insert field rules)
  | .compile => s.orProblem (s.examiner.compile s.fields) fun chains => (s, .chains chains)
  | .validate =>
    s.orProblem (s.examiner.validate s.today s.record s.fields s.wording) fun failures =>
      (s, .texts failures)
  | .examine =>
    let lenient : Examiner := ⟨s.registry, false⟩
    s.orProblem (lenient.validate s.today s.record s.fields s.wording) fun failures =>
      (s, .texts failures)
  | .clean tags =>
    s.orProblem (s.policy.clean tags s.record) fun record =>
      ({ s with record }, .record record)
  | .filter keep =>
    let pipeline : Pipeline := ⟨s.policy, s.examiner⟩
    s.orProblem (pipeline.run s.today s.record s.fields s.wording) fun outcome =>
      (if keep then { s with record := outcome.record } else s, .outcome outcome)
  | .checkRule rule field params =>
    match s.registry.get? rule with
    | some definition =>
      (s, .flag (definition.check ⟨s.record, field, s.today⟩ params))
    | none => (s, .nothing)

/-- Carries out steps one after the other and gives their replies. -/
def replies (s : Session) : List Step → List Reply
  | [] => []
  | step :: rest => (s.step step).2 :: (s.step step).1.replies rest

end Session

end Intake
