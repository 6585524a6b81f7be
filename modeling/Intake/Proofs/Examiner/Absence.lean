import Intake.Proofs.Examiner.Arity
import Intake.Proofs.Examiner.Comparison

/-!
# Missing fields

A field that is missing or null passes most rules, so that a form need not fill it in.  The
standard rules that it fails are `required`, `secure`, and a `same` that compares it with
nothing or with a field that is there.

* `Call.RejectsMissing`: the calls that a missing field fails.
* `Registry.check_of_missing`: the standard rules let it pass all others.
* `Examiner.missing_field_fails_iff`: the chains that a missing field fails.
-/

namespace Intake

open Rule Message

/-- A missing field agrees with another one if this is missing, too. -/
theorem Record.agree_iff_of_missing {r : Record} {field : String} (h : r.present? field = none)
    (other : String) : r.Agree field other ↔ r.present? other = none := by
  unfold Record.Agree
  simp [h]

namespace Rule

/-- The calls of standard rules that a field fails which is missing in a record. -/
inductive Call.RejectsMissing (r : Record) (call : Call) : Prop where
  | required (name : call.name = "required")
  | secure (name : call.name = "secure")
  /-- There is nothing to compare with. -/
  | sameAsNothing (name : call.name = "same") (params : call.params = [])
  /-- The field that the first parameter names is there. -/
  | sameAsPresent (name : call.name = "same") {param : Param} {rest : List Param}
      (params : call.params = param :: rest) (present : (r.present? param.toText).isSome = true)

theorem Call.rejectsMissing_iff (r : Record) (call : Call) :
    call.RejectsMissing r ↔ call.name = "required" ∨ call.name = "secure" ∨
      call.name = "same" ∧
        call.params.head?.all (fun param => (r.present? param.toText).isSome) = true := by
  constructor
  · intro h
    cases h with
    | required name => exact .inl name
    | secure name => exact .inr (.inl name)
    | sameAsNothing name params => exact .inr (.inr ⟨name, by rw [params]; rfl⟩)
    | sameAsPresent name params present => exact .inr (.inr ⟨name, by rw [params]; exact present⟩)
  · intro h
    obtain name | name | ⟨name, hother⟩ := h
    · exact .required name
    · exact .secure name
    · cases hparams : call.params with
      | nil => exact .sameAsNothing name hparams
      | cons param rest =>
        rw [hparams] at hother
        exact .sameAsPresent name hparams hother

instance (r : Record) (call : Call) : Decidable (call.RejectsMissing r) :=
  decidable_of_iff' _ (call.rejectsMissing_iff r)

theorem Call.RejectsMissing.name_mem {r : Record} {call : Call} (h : call.RejectsMissing r) :
    call.name ∈ ["required", "secure", "same"] := by
  obtain name | name | ⟨name, -⟩ := (call.rejectsMissing_iff r).1 h <;> simp [name]

/-- The calls that reject missing fields are calls of standard rules. -/
theorem Call.RejectsMissing.isSome_get? [PhoneDirectory] {r : Record} {call : Call}
    (h : call.RejectsMissing r) : (Registry.standard.get? call.name).isSome = true := by
  have hall : ["required", "secure", "same"].all
      (fun name => (Registry.standard.get? name).isSome) = true := by
    simp only [Registry.get?_standard]
    rfl
  exact List.all_eq_true.1 hall call.name h.name_mem

namespace Checks

variable {s : Subject}

theorem required_of_missing (h : s.value? = none) (params : List Param) :
    required s params = false := by
  rw [required, h]
  rfl

theorem secure_of_missing (h : s.value? = none) (params : List Param) :
    secure s params = false := by
  rw [secure, h]
  rfl

theorem same_of_missing (h : s.value? = none) (params : List Param) :
    same s params = true ↔ ¬ (Call.mk "same" params).RejectsMissing s.record := by
  cases params with
  | nil => exact iff_of_false Bool.false_ne_true fun hpasses => hpasses (.sameAsNothing rfl rfl)
  | cons param rest =>
    rw [show s = ⟨s.record, s.field, s.today⟩ from rfl, same_iff_agree,
      Record.agree_iff_of_missing h, Call.rejectsMissing_iff]
    simp

end Checks

/-- **What the standard rules say of a missing field.**  It passes all calls but those that reject
missing fields. -/
theorem Registry.check_of_missing [PhoneDirectory] {name : String} {rule : Definition}
    (hrule : Registry.standard.get? name = some rule) {s : Subject} (h : s.value? = none)
    (params : List Param) :
    rule.check s params = true ↔ ¬ (Call.mk name params).RejectsMissing s.record := by
  have hpasses : ∀ name, name ∉ ["required", "secure", "same"] →
      ¬ (Call.mk name params).RejectsMissing s.record := by
    intro name hname hrejects
    exact hname hrejects.name_mem
  refine Registry.standard_cases (P := fun name rule =>
    rule.check s params = true ↔ ¬ (Call.mk name params).RejectsMissing s.record)
    ?required ?email ?min ?max ?between ?same ?alphanumeric ?secure ?number ?phone ?url ?iso
    ?minAge hrule
  case required =>
    intro message
    exact iff_of_false (by simp [Checks.required_of_missing h]) fun hnot => hnot (.required rfl)
  case secure =>
    intro message
    exact iff_of_false (by simp [Checks.secure_of_missing h]) fun hnot => hnot (.secure rfl)
  case same => exact fun _ => Checks.same_of_missing h params
  -- the other rules look at the value of the field, and pass without one
  all_goals exact fun _ => iff_of_true (Checks.ifPresent_of_missing h _) (hpasses _ (by decide))

end Rule

namespace Examiner

/-- **A missing field is rejected by exactly the calls that reject missing fields.** -/
theorem rejects_iff_of_missing [PhoneDirectory] (strict : Bool) {s : Subject}
    (h : s.value? = none) (call : Call) :
    rejects ⟨.standard, strict⟩ s call = true ↔ call.RejectsMissing s.record := by
  cases hrule : Registry.standard.get? call.name with
  | none =>
    have hskips : rejects ⟨.standard, strict⟩ s call = false := by
      unfold rejects
      rw [hrule]
    refine iff_of_false (by simp [hskips]) fun hrejects => ?_
    have hsome := hrejects.isSome_get?
    rw [hrule] at hsome
    cases hsome
  | some rule =>
    rw [rejects_eq_not_check hrule, Bool.not_eq_true', ← Bool.not_eq_true,
      Registry.check_of_missing hrule h, not_not]

/-- **Which chains a missing field fails.**  Where the chain of a field compiles, a record in which
the field is missing or null is examined, and the field fails if and only if the chain requires it,
asks for a strong password, or compares it with nothing or with a field that is there.  All other
calls of standard rules let it pass, whatever their parameters are and whichever telephone numbers
there are. -/
theorem missing_field_fails_iff [PhoneDirectory] (strict : Bool) {texts : Dict String}
    {chains : List Chain} (h : compile ⟨.standard, strict⟩ texts = .ok chains) {chain : Chain}
    (hchain : chain ∈ chains) {r : Record} (hmissing : r.present? chain.field = none)
    (today : Date) (w : Wording) :
    (∃ failures, validate ⟨.standard, strict⟩ today r texts w = .ok failures ∧
      (failures.contains chain.field = true ↔ ∃ call ∈ chain.calls, call.RejectsMissing r)) ∧
    ∀ name rule params, Registry.standard.get? name = some rule →
      (rule.check ⟨r, chain.field, today⟩ params = true ↔
        ¬ (Call.mk name params).RejectsMissing r) := by
  have hvalue : (Subject.mk r chain.field today).value? = none := hmissing
  refine ⟨⟨_, validate_of_compile h today r w, ?_⟩, fun name rule params hrule => ?_⟩
  · rw [contains_examine_iff_of_mem h hchain]
    refine exists_congr fun call => and_congr_right fun _ => ?_
    exact rejects_iff_of_missing strict hvalue call
  · exact Registry.check_of_missing hrule hvalue params

open TwoCountries in
/-- A second password that is null passes as long as the first one is missing, too, and fails once
it is there. -/
theorem missing_field_fails_iff_of_confirm :
    let texts : Dict String := Dict.ofList [("confirm", "unique|min|same:password")]
    let today : Date := ⟨2024, 6, 15, by decide⟩
    let blank : Record := Dict.ofList [("confirm", .null)]
    let filled : Record := Dict.ofList [("confirm", .null), ("password", .text "Secret1!")]
    (∃ failures, validate ⟨.standard, false⟩ today blank texts .empty = .ok failures ∧
      failures.contains "confirm" = false) ∧
    ∃ failures, validate ⟨.standard, false⟩ today filled texts .empty = .ok failures ∧
      failures.contains "confirm" = true := by
  intro texts today blank filled
  let confirm : Chain :=
    ⟨"confirm", [⟨"unique", []⟩, ⟨"min", []⟩, ⟨"same", [.text "password"]⟩]⟩
  have hcompile : compile ⟨.standard, false⟩ texts = .ok [confirm] := rfl
  have hmem : confirm ∈ [confirm] := List.mem_singleton_self _
  obtain ⟨⟨failures, hblank, hpasses⟩, -⟩ := missing_field_fails_iff false hcompile hmem
    (r := blank) rfl today .empty
  obtain ⟨⟨failures', hfilled, hfails⟩, -⟩ := missing_field_fails_iff false hcompile hmem
    (r := filled) rfl today .empty
  refine ⟨⟨failures, hblank, ?_⟩, failures', hfilled, ?_⟩
  · rw [← Bool.not_eq_true, hpasses]
    decide
  · exact hfails.2 ⟨⟨"same", [.text "password"]⟩, by simp [confirm], .sameAsPresent rfl rfl rfl⟩

end Examiner

end Intake
