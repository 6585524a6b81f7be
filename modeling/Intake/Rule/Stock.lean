import Intake.Rule.Checks

/-!
# Ready-made tests for own rules

Rules that a form adds to the standard ones can use these tests, which show what a test may
look at: the value, the name of the field, the other fields, and the day.
-/

namespace Intake.Rule

/-- The ready-made tests. -/
inductive Stock where
  | pass
  | fail
  /-- The text of the field begins with the parameter. -/
  | startsWith
  /-- The field is not an odd number. -/
  | even
  /-- The parameter is the name of the field. -/
  | fieldIs
  /-- The record has at least as many fields as the parameter says. -/
  | minFields
  /-- The year of the day is at least the parameter. -/
  | yearFrom
deriving DecidableEq, Repr

/-- The tests.  What has no text passes those that look at text. -/
def Stock.check : Stock → Check
  | pass, _, _ => true
  | fail, _, _ => false
  | startsWith, s, params =>
    match s.value?.bind Value.text?, params.head? with
    | none, _ => true
    | some _, none => false
    | some text, some start => start.toText.toList.isPrefixOf text.toList
  | even, s, _ =>
    match (s.value?.bind Value.text?).bind fun text => Number.readInt64? text.toList with
    | none => true
    | some n => n.toInt % 2 == 0
  | fieldIs, s, params => params.head?.map Param.toText == some s.field
  | minFields, s, params =>
    match Checks.intParam? params 0 with
    | none => false
    | some n => n.toInt ≤ s.record.size
  | yearFrom, s, params =>
    match Checks.intParam? params 0 with
    | none => false
    | some n => n.toInt ≤ s.today.year

end Intake.Rule
