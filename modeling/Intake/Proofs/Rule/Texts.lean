import Intake.Rule.Checks

/-!
# Rules on texts

What four of the standard rules say of a field that holds a text.
-/

namespace Intake

open Rule

theorem Record.present?_eq_some {r : Record} {field : String} {v : Value}
    (h : r.get? field = some v) (hnull : v.isNull = false) : r.present? field = some v := by
  unfold Record.present?
  rw [h, Option.filter_some_pos (by simp [hnull])]

namespace Rule.Checks

variable {s : Subject} {t : String}

theorem value?_of_text (h : s.record.get? s.field = some (.text t)) : s.value? = some (.text t) :=
  Record.present?_eq_some h rfl

/-- The email rule accepts a text that is there if and only if it is empty or an address. -/
theorem email_iff_of_text (h : s.record.get? s.field = some (.text t)) (params : List Param) :
    Checks.email s params = true ↔ t = "" ∨ Email.isAddress t = true := by
  unfold Checks.email Checks.ifPresent
  rw [value?_of_text h]
  show ((t == "") || Email.isAddress t) = true ↔ _
  rw [Bool.or_eq_true, beq_iff_eq]

/-- The number rule accepts a text that is there if and only if it reads as a number. -/
theorem number_iff_of_text (h : s.record.get? s.field = some (.text t)) (params : List Param) :
    Checks.number s params = true ↔ Number.isNumeral t.toList = true := by
  unfold Checks.number Checks.ifPresent
  rw [value?_of_text h]
  rfl

/-- The secure rule accepts a text that is there if and only if it is a strong password. -/
theorem secure_iff_of_text (h : s.record.get? s.field = some (.text t)) (params : List Param) :
    Checks.secure s params = true ↔ Checks.isStrong t = true := by
  unfold Checks.secure
  rw [value?_of_text h]
  rfl

/-- The rule for ages reads a text that is there as a date and counts the full years since then. -/
theorem minAge_iff_of_text (h : s.record.get? s.field = some (.text t)) (n : Int64)
    (more : List Param) :
    Checks.minAge s (.int n :: more) = true ↔
      ∃ born, Date.read? t = some born ∧ n.toInt ≤ born.fullYears s.today := by
  have htext : (Value.text t).text?.bind Date.read? = Date.read? t := rfl
  have hparam : Checks.intParam? (.int n :: more) 0 = some n := rfl
  unfold Checks.minAge Checks.ifPresent
  simp only [value?_of_text h, htext, hparam]
  cases Date.read? t with
  | none => simp
  | some born => simp

end Rule.Checks

end Intake
