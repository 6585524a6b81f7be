import Intake.Proofs.Examiner.Rejections

/-!
# Rewording

A wording decides what a failure is told and never whether there is one.  A template set for a
rule is filled in where the last rejection of a field is by this rule and, if it was set for all
fields, where the field has no template of its own for it.

* `Examiner.lastRejected?`: the use of a rule whose message a field keeps.
* `Message.Wording.template?_setField` and `Message.Wording.template?_setRule`: which templates one
  step of rewording changes.
* `Examiner.rewording_is_local`: which messages it changes, and to what.
-/

namespace Intake

open Rule Message

/-! ### Templates -/

namespace Message.Wording

/-- A template set for a field and a rule is found for these two and no others. -/
theorem fieldTemplate?_setField (w : Wording) (field rule template f name : String) :
    (w.setField field rule template).fieldTemplate? f name =
      if f = field ∧ name = rule then some template else w.fieldTemplate? f name := by
  unfold fieldTemplate? setField
  rw [Dict.get?_insert]
  by_cases hfield : f = field
  · subst hfield
    rw [if_pos rfl, Option.bind_some, Dict.get?_insert]
    by_cases hname : name = rule
    · rw [if_pos hname, if_pos ⟨rfl, hname⟩]
    · -- a field without templates of its own gets an empty map of them
      rw [if_neg hname, if_neg fun h => hname h.2]
      cases w.fields.get? f <;> rfl
  · rw [if_neg hfield, if_neg fun h => hfield h.1]

theorem template?_setField (w : Wording) (registry : Registry)
    (field rule template f name : String) :
    (w.setField field rule template).template? registry f name =
      if f = field ∧ name = rule then some template else w.template? registry f name := by
  rw [template?_eq, fieldTemplate?_setField]
  by_cases h : f = field ∧ name = rule
  · rw [if_pos h, if_pos h, Option.some_or, Option.some_or]
  · rw [if_neg h, if_neg h, template?_eq]
    rfl

/-- A template set for a rule applies to the fields that have none of their own for it. -/
theorem template?_setRule (w : Wording) (registry : Registry) (rule template f name : String) :
    (w.setRule rule template).template? registry f name =
      if name = rule ∧ w.fieldTemplate? f name = none then some template
      else w.template? registry f name := by
  rw [template?_eq, template?_eq]
  show ((w.fieldTemplate? f name).or ((w.rules.insert rule template).get? name)).or _ = _
  rw [Dict.get?_insert]
  cases hown : w.fieldTemplate? f name with
  | some own => simp
  | none =>
    by_cases hname : name = rule
    · rw [if_pos hname, if_pos ⟨hname, rfl⟩, Option.none_or, Option.some_or]
    · rw [if_neg hname, if_neg fun h => hname h.1]

end Message.Wording

namespace Examiner

/-! ### The use of a rule whose message is kept -/

/-- The last use of a rule on a field that is rejected. -/
def lastRejected? (x : Examiner) (today : Date) (r : Record) (chains : List Chain)
    (field : String) : Option Call :=
  ((x.rejected today r chains).filter (·.1 == field)).getLast?.map (·.2)

/-- A field keeps the message of its last rejection. -/
theorem get?_examine_eq_map (x : Examiner) (today : Date) (r : Record) (chains : List Chain)
    (w : Wording) (field : String) :
    (x.examine today r chains w).get? field =
      (x.lastRejected? today r chains field).map (x.messageFor w field) := by
  rw [get?_examine, lastRejected?, Option.map_map]
  refine Option.map_congr fun u hu => ?_
  obtain ⟨-, hfield⟩ := List.mem_filter.1 (List.mem_of_getLast? hu)
  rw [beq_iff_eq.1 hfield]
  rfl

/-! ### Messages -/

/-- A template that takes the place of another one under a condition changes the message under this
condition. -/
theorem messageFor_ite {x : Examiner} {w reworded : Wording} {field template : String} {call : Call}
    {applies : Prop} [Decidable applies]
    (h : reworded.template? x.registry field call.name =
      if applies then some template else w.template? x.registry field call.name) :
    x.messageFor reworded field call =
      if applies then fill template (field :: call.params.map Param.toText)
      else x.messageFor w field call := by
  unfold messageFor
  rw [h]
  by_cases happlies : applies
  · rw [if_pos happlies, if_pos happlies]
    rfl
  · rw [if_neg happlies, if_neg happlies]

/-- A template set for a field and a rule words the messages of the rule on this field. -/
theorem messageFor_setField (x : Examiner) (w : Wording) (field rule template other : String)
    (call : Call) :
    x.messageFor (w.setField field rule template) other call =
      if other = field ∧ call.name = rule then fill template (other :: call.params.map Param.toText)
      else x.messageFor w other call :=
  messageFor_ite (w.template?_setField x.registry field rule template other call.name)

/-- A template set for a rule words its messages on the fields that have none of their own. -/
theorem messageFor_setRule (x : Examiner) (w : Wording) (rule template field : String)
    (call : Call) :
    x.messageFor (w.setRule rule template) field call =
      if call.name = rule ∧ w.fieldTemplate? field call.name = none then
        fill template (field :: call.params.map Param.toText)
      else x.messageFor w field call :=
  messageFor_ite (w.template?_setRule x.registry rule template field call.name)

/-- **Rewording changes the messages that the template is for, and nothing else.**  Which fields
fail does not depend on the wording.  A template set for a field and a rule changes the message of
this field if its last rejection is by the rule, and one set for a rule changes the messages of all
fields whose last rejection is by it and that have no template of their own for it.  These messages
fill in the template with the field and the parameters of that rejection; all others stay. -/
theorem rewording_is_local (x : Examiner) (today : Date) (r : Record) (chains : List Chain)
    (w : Wording) :
    (∀ (other : Wording) (field : String),
      (x.examine today r chains other).contains field =
        (x.examine today r chains w).contains field) ∧
    (∀ field rule template other : String,
      (x.examine today r chains (w.setField field rule template)).get? other =
        if other = field ∧ (x.lastRejected? today r chains other).map Call.name = some rule then
          (x.lastRejected? today r chains other).map fun call =>
            fill template (other :: call.params.map Param.toText)
        else (x.examine today r chains w).get? other) ∧
    ∀ rule template field : String,
      (x.examine today r chains (w.setRule rule template)).get? field =
        if (x.lastRejected? today r chains field).map Call.name = some rule ∧
            w.fieldTemplate? field rule = none then
          (x.lastRejected? today r chains field).map fun call =>
            fill template (field :: call.params.map Param.toText)
        else (x.examine today r chains w).get? field := by
  refine ⟨?_, ?_, ?_⟩
  · intro other field
    rw [Dict.contains, Dict.contains, get?_examine_eq_map, get?_examine_eq_map, Option.isSome_map,
      Option.isSome_map]
  · intro field rule template other
    rw [get?_examine_eq_map, get?_examine_eq_map]
    cases x.lastRejected? today r chains other with
    | none => simp
    | some call =>
      simp only [Option.map_some, Option.some.injEq, messageFor_setField]
      exact apply_ite some _ _ _
  · intro rule template field
    rw [get?_examine_eq_map, get?_examine_eq_map]
    cases x.lastRejected? today r chains field with
    | none => simp
    | some call =>
      simp only [Option.map_some, Option.some.injEq, messageFor_setRule]
      by_cases hname : call.name = rule
      · subst hname
        exact apply_ite some _ _ _
      · rw [if_neg fun h => hname h.1, if_neg fun h => hname h.1]

end Examiner

end Intake
