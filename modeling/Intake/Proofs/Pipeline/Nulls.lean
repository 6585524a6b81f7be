import Intake.Proofs.Pipeline.Independence

/-!
# Null counts as missing

A form may send null for a field or leave the field out.  Cleaning keeps such a null, makes
others of values that do not suit their tag, and never adds a field.  The standard rules do not
tell null from a missing field.

* `Record.withoutNulls` is a record without its null fields, and `Record.withoutNullsOf` another
  record without the same fields.
* `Policy.cleanWith_withoutNulls`: null fields can be left out before or after cleaning.
* `Examiner.examine_congr_of_standard`: records with the same fields that are present fail alike.
* `Pipeline.run_withoutNulls`: a run without the null fields.
-/

namespace Intake

open Rule Message Cleaning

/-! ### Records without null fields -/

namespace Record

/-- The record without its fields that are null. -/
def withoutNulls (r : Record) : Record :=
  r.filterMap fun _ v => if v.isNull then none else some v

/-- The record without the fields that are null in a given one. -/
def withoutNullsOf (s r : Record) : Record :=
  s.filterMap fun field v => if (r.get? field).any Value.isNull then none else some v

theorem get?_withoutNulls (r : Record) (field : String) :
    r.withoutNulls.get? field = r.present? field := by
  rw [withoutNulls, Dict.get?_filterMap, present?]
  cases r.get? field with
  | none => rfl
  | some v => cases hnull : v.isNull <;> simp [Option.filter, hnull]

theorem present?_withoutNulls (r : Record) (field : String) :
    r.withoutNulls.present? field = r.present? field := by
  rw [present?, get?_withoutNulls, present?, Option.filter_filter]
  simp only [Bool.and_self]

theorem get?_withoutNullsOf (s r : Record) (field : String) :
    (s.withoutNullsOf r).get? field =
      if (r.get? field).any Value.isNull then none else s.get? field := by
  rw [withoutNullsOf, Dict.get?_filterMap]
  cases s.get? field with
  | none => simp
  | some v => rfl

end Record

/-! ### Cleaning and examining -/

/-- **Null fields can be left out before or after cleaning.** -/
theorem Cleaning.Policy.cleanWith_withoutNulls (p : Policy) (tags : Dict Tag) (r : Record) :
    p.cleanWith tags r.withoutNulls = (p.cleanWith tags r).withoutNullsOf r := by
  apply Dict.ext_get?
  intro field
  rw [get?_cleanWith, Record.get?_withoutNulls, Record.get?_withoutNullsOf, get?_cleanWith,
    Record.present?]
  cases r.get? field with
  | none => rfl
  | some v => cases hnull : v.isNull <;> simp [Option.filter, hnull]

/-- **Records with the same fields that are present fail alike.** -/
theorem Examiner.examine_congr_of_standard [PhoneDirectory] (strict : Bool) (today : Date)
    {r₁ r₂ : Record} (h : ∀ field, r₁.present? field = r₂.present? field) (chains : List Chain)
    (w : Wording) :
    Examiner.examine ⟨.standard, strict⟩ today r₁ chains w =
      Examiner.examine ⟨.standard, strict⟩ today r₂ chains w := by
  apply Dict.ext_get?
  intro field
  refine Examiner.get?_examine_congr _ today chains w field ?_
  intro _ _ _ call _
  exact Examiner.rejects_congr_of_standard strict (h field) rfl fun other _ => h other

/-! ### Runs -/

/-- **Null counts as missing.**  A run on a record without its null fields stops at the same
problem as a run on the record, or it succeeds as well, with the same failures.  What it leaves
is what the run on the record leaves, without the fields that were null.  This holds with every
directory of telephone numbers. -/
theorem Pipeline.run_withoutNulls [PhoneDirectory] (policy : Policy) (strict : Bool)
    (today : Date) (r : Record) (fields : Dict String) (w : Wording) :
    run ⟨policy, ⟨.standard, strict⟩⟩ today r.withoutNulls fields w =
      (run ⟨policy, ⟨.standard, strict⟩⟩ today r fields w).map fun o =>
        ⟨o.record.withoutNullsOf r, o.failures⟩ := by
  rw [run_eq, run_eq]
  cases Examiner.compile ⟨.standard, strict⟩ (chainsOf fields) with
  | error problem => rfl
  | ok chains =>
    cases Policy.resolve (tagsOf fields) with
    | error problem => rfl
    | ok tags =>
      have hfailures := Examiner.examine_congr_of_standard strict today
        (fun field => policy.present?_cleanWith_congr tags (r.present?_withoutNulls field))
        chains w
      show Except.ok (Outcome.mk (policy.cleanWith tags r.withoutNulls) _) = .ok _
      rw [hfailures, policy.cleanWith_withoutNulls]

end Intake
