import Intake.Rule.Chain
import Intake.Rule.Standard

/-!
# What standard rules read

A rule could look at the whole record.  The standard rules do not: they look at the value of
the field that is checked, at the day and at their parameters, and only `same` looks at one
more field, which its first parameter names.

* `Call.otherField?` is that field.
* `Registry.check_congr_of_standard`: subjects that agree on what is read get the same verdict.
-/

namespace Intake.Rule

/-- The field that a use of a standard rule looks at besides the one that is checked. -/
def Call.otherField? (call : Call) : Option String :=
  if call.name = "same" then call.params.head?.map Param.toText else none

namespace Checks

variable {s₁ s₂ : Subject}

theorem ifPresent_congr (hvalue : s₁.value? = s₂.value?) (test : Value → Bool) :
    ifPresent test s₁ = ifPresent test s₂ := by
  unfold ifPresent
  rw [hvalue]

theorem ifPresent_of_value {s : Subject} {v : Value} (h : s.value? = some v)
    (test : Value → Bool) : ifPresent test s = test v := by
  unfold ifPresent
  rw [h]

theorem ifPresent_of_missing {s : Subject} (h : s.value? = none) (test : Value → Bool) :
    ifPresent test s = true := by
  unfold ifPresent
  rw [h]

theorem required_congr (hvalue : s₁.value? = s₂.value?) (params : List Param) :
    required s₁ params = required s₂ params := by
  unfold required
  rw [hvalue]

theorem secure_congr (hvalue : s₁.value? = s₂.value?) (params : List Param) :
    secure s₁ params = secure s₂ params := by
  unfold secure
  rw [hvalue]

theorem minAge_congr (hvalue : s₁.value? = s₂.value?) (htoday : s₁.today = s₂.today)
    (params : List Param) : minAge s₁ params = minAge s₂ params := by
  unfold minAge
  rw [htoday]
  exact ifPresent_congr hvalue _

theorem same_congr (hvalue : s₁.value? = s₂.value?) (params : List Param)
    (hother : ∀ other, params.head?.map Param.toText = some other →
      s₁.valueOf? other = s₂.valueOf? other) : same s₁ params = same s₂ params := by
  cases params with
  | nil => rfl
  | cons param rest =>
    dsimp only [same]
    rw [hvalue, hother param.toText rfl]

end Checks

/-- **Subjects that agree on what a standard rule reads get the same verdict.** -/
theorem Registry.check_congr_of_standard [PhoneDirectory] {call : Call} {rule : Definition}
    (h : Registry.standard.get? call.name = some rule) {s₁ s₂ : Subject}
    (hvalue : s₁.value? = s₂.value?) (htoday : s₁.today = s₂.today)
    (hother : ∀ other, call.otherField? = some other →
      s₁.valueOf? other = s₂.valueOf? other) :
    rule.check s₁ call.params = rule.check s₂ call.params := by
  obtain ⟨name, params⟩ := call
  revert hother
  refine Registry.standard_cases (P := fun name rule =>
    (∀ other, (Call.mk name params).otherField? = some other →
      s₁.valueOf? other = s₂.valueOf? other) → rule.check s₁ params = rule.check s₂ params)
    ?required ?email ?min ?max ?between ?same ?alphanumeric ?secure ?number ?phone ?url ?iso
    ?minAge h
  case required => exact fun _ _ => Checks.required_congr hvalue params
  case same => exact fun _ hother => Checks.same_congr hvalue params hother
  case secure => exact fun _ _ => Checks.secure_congr hvalue params
  case minAge => exact fun _ _ => Checks.minAge_congr hvalue htoday params
  -- the other rules look at nothing but the value
  all_goals exact fun _ _ => Checks.ifPresent_congr hvalue _

end Intake.Rule
