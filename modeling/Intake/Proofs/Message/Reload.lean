import Intake.Dict.Lemmas
import Intake.Message.Wording

/-!
# Saving and reloading wordings

A wording is written as a single map, in which a name stands either for a rule or for a
field.  So a wording that words a rule and a field of the same name does not survive.

* `Wording.get?_toEntries`: where both are worded, the field is what is written.
* `Wording.reload_eq_iff`: a wording survives if and only if no name is worded in both ways.
* `Wording.reload_ofEntries`: what was read from a map survives.
* `Wording.reload_ofEdits`: what becomes of a wording that was built step by step.
-/

namespace Intake.Message

/-! ### Building step by step -/

/-- A step of building a wording. -/
inductive Edit where
  | rule (rule template : String)
  | field (field rule template : String)

namespace Edit

def rule? : Edit → Option String
  | .rule name _ => some name
  | .field .. => none

def field? : Edit → Option String
  | .rule .. => none
  | .field name .. => some name

end Edit

namespace Wording

def edit (w : Wording) : Edit → Wording
  | .rule rule template => w.setRule rule template
  | .field field rule template => w.setField field rule template

/-- The wording that steps build up from nothing. -/
def ofEdits (edits : List Edit) : Wording :=
  edits.foldl edit empty

theorem contains_rules_edit (w : Wording) (e : Edit) (name : String) :
    (w.edit e).rules.contains name = true ↔
      e.rule? = some name ∨ w.rules.contains name = true := by
  cases e with
  | rule rule template =>
    show (w.rules.insert rule template).contains name = true ↔ some rule = some name ∨ _
    rw [Dict.contains_insert, Option.some_inj, eq_comm]
  | field field rule template =>
    show w.rules.contains name = true ↔ none = some name ∨ _
    simp

theorem contains_fields_edit (w : Wording) (e : Edit) (name : String) :
    (w.edit e).fields.contains name = true ↔
      e.field? = some name ∨ w.fields.contains name = true := by
  cases e with
  | rule rule template =>
    show w.fields.contains name = true ↔ none = some name ∨ _
    simp
  | field field rule template =>
    show (w.fields.insert field _).contains name = true ↔ some field = some name ∨ _
    rw [Dict.contains_insert, Option.some_inj, eq_comm]

/-- What a step adds and never takes away is there after all steps if one of them added it. -/
theorem foldl_edit_iff (has : Wording → Prop) {adds : Edit → Prop}
    (step : ∀ w e, has (edit w e) ↔ adds e ∨ has w) (edits : List Edit) (w : Wording) :
    has (edits.foldl edit w) ↔ (∃ e ∈ edits, adds e) ∨ has w := by
  induction edits generalizing w with
  | nil => simp
  | cons e rest ih =>
    rw [List.foldl_cons, ih, step]
    simp only [List.mem_cons, exists_eq_or_imp]
    rw [← or_assoc, or_comm (a := ∃ e ∈ rest, adds e)]

theorem contains_rules_ofEdits (edits : List Edit) (name : String) :
    (ofEdits edits).rules.contains name = true ↔ name ∈ edits.filterMap Edit.rule? := by
  rw [ofEdits, foldl_edit_iff (fun w => w.rules.contains name = true)
    (fun w e => w.contains_rules_edit e name), List.mem_filterMap]
  show _ ∨ false = true ↔ _
  simp

theorem contains_fields_ofEdits (edits : List Edit) (name : String) :
    (ofEdits edits).fields.contains name = true ↔ name ∈ edits.filterMap Edit.field? := by
  rw [ofEdits, foldl_edit_iff (fun w => w.fields.contains name = true)
    (fun w e => w.contains_fields_edit e name), List.mem_filterMap]
  show _ ∨ false = true ↔ _
  simp

/-! ### Saving and reloading -/

/-- The wording that is read from the map that a wording is written as. -/
def reload (w : Wording) : Wording :=
  ofEntries w.toEntries

theorem get?_toEntries (w : Wording) (name : String) :
    w.toEntries.get? name =
      ((w.fields.get? name).map Entry.field).or ((w.rules.get? name).map Entry.rule) := by
  unfold toEntries
  rw [Dict.get?_insertMany_entries, Dict.get?_map, Dict.get?_map]

theorem get?_rules_ofEntries (entries : Dict Entry) (name template : String) :
    (ofEntries entries).rules.get? name = some template ↔
      entries.get? name = some (.rule template) := by
  unfold ofEntries
  rw [Dict.get?_filterMap]
  cases entries.get? name with
  | none => simp
  | some entry => cases entry <;> simp

theorem get?_fields_ofEntries (entries : Dict Entry) (name : String)
    (templates : Dict String) :
    (ofEntries entries).fields.get? name = some templates ↔
      entries.get? name = some (.field templates) := by
  unfold ofEntries
  rw [Dict.get?_filterMap]
  cases entries.get? name with
  | none => simp
  | some entry => cases entry <;> simp

theorem fields_reload (w : Wording) : w.reload.fields = w.fields := by
  apply Dict.ext_get?
  intro name
  apply Option.ext
  intro templates
  rw [reload, get?_fields_ofEntries, get?_toEntries]
  cases w.fields.get? name with
  | some templates' => simp
  | none => cases w.rules.get? name <;> simp

/-- A rule survives unless a field has its name. -/
theorem get?_rules_reload (w : Wording) (name : String) :
    w.reload.rules.get? name =
      if w.fields.contains name then none else w.rules.get? name := by
  apply Option.ext
  intro template
  rw [reload, get?_rules_ofEntries, get?_toEntries, Dict.contains]
  cases w.fields.get? name with
  | some templates => simp
  | none => cases w.rules.get? name <;> simp

/-- **A wording survives if and only if no name is both that of a rule and that of a field.** -/
theorem reload_eq_iff (w : Wording) :
    w.reload = w ↔ ∀ name, w.rules.contains name = true → w.fields.contains name = false := by
  constructor
  · intro h name hrule
    have hkept : w.reload.rules.get? name = w.rules.get? name := by rw [h]
    rw [get?_rules_reload] at hkept
    cases hfield : w.fields.contains name with
    | false => rfl
    | true =>
      rw [hfield, if_pos rfl] at hkept
      rw [Dict.contains, ← hkept] at hrule
      cases hrule
  · intro h
    have hrules : w.reload.rules = w.rules := by
      apply Dict.ext_get?
      intro name
      rw [get?_rules_reload]
      split
      · rename_i hfield
        cases hget : w.rules.get? name with
        | none => rfl
        | some template =>
          have hrule : w.rules.contains name = true := by rw [Dict.contains, hget]; rfl
          rw [h name hrule] at hfield
          cases hfield
      · rfl
    have hfields := w.fields_reload
    cases hw : w.reload with
    | mk rules fields =>
      rw [hw] at hrules hfields
      cases hrules
      cases hfields
      rfl

/-- What was read from a map survives. -/
theorem reload_ofEntries (entries : Dict Entry) :
    (ofEntries entries).reload = ofEntries entries := by
  rw [reload_eq_iff]
  intro name hrule
  obtain ⟨template, htemplate⟩ := Option.isSome_iff_exists.1 hrule
  have hentry := (get?_rules_ofEntries entries name template).1 htemplate
  rw [Dict.contains, Option.isSome_eq_false_iff, Option.isNone_iff_eq_none,
    Option.eq_none_iff_forall_ne_some]
  intro templates hfield
  rw [get?_fields_ofEntries, hentry] at hfield
  cases hfield

/-- **What saving and reloading does to a wording that was built step by step.**  It survives
if and only if no name was used both for a rule and for a field.  The templates for single
fields always survive, and those for rules on all fields are lost for exactly the rules with
the name of such a field. -/
theorem reload_ofEdits (edits : List Edit) :
    ((ofEdits edits).reload = ofEdits edits ↔
      ∀ name ∈ edits.filterMap Edit.rule?, name ∉ edits.filterMap Edit.field?) ∧
    (∀ field rule, (ofEdits edits).reload.fieldTemplate? field rule =
      (ofEdits edits).fieldTemplate? field rule) ∧
    ∀ rule, (ofEdits edits).reload.rules.get? rule =
      if rule ∈ edits.filterMap Edit.field? then none else (ofEdits edits).rules.get? rule := by
  refine ⟨?_, ?_, ?_⟩
  · rw [reload_eq_iff]
    refine forall_congr' fun name => ?_
    rw [contains_rules_ofEdits, ← contains_fields_ofEdits, Bool.not_eq_true]
  · intro field rule
    unfold fieldTemplate?
    rw [fields_reload]
  · intro rule
    rw [get?_rules_reload]
    simp only [contains_fields_ofEdits]

/-- The name of a field that is worded as a rule first loses its template. -/
theorem reload_loses_rule :
    let w := ofEdits [.rule "email" "x", .field "email" "required" "y"]
    w.reload ≠ w ∧ w.rules.get? "email" = some "x" ∧ w.reload.rules.get? "email" = none := by
  decide +kernel

end Wording

end Intake.Message
