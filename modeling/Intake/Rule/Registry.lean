import Intake.Dict.Lemmas
import Intake.Value
import Intake.Calendar
import Intake.Rule.Param

/-!
# Rules and their registry

* `Subject` is what a rule may look at: a field, the record it belongs to, and the day.
* `Definition` is a rule: its test, its message and how many parameters it takes.
* `Registry` finds rules and default messages by name.  Every rule has a message.  A name may
  have a message and no rule, so that a chain may use it for a check that is made elsewhere.
-/

namespace Intake.Rule

/-- What a rule is checked on. -/
structure Subject where
  record : Record
  /-- The field that is checked. -/
  field : String
  /-- The day that ages are counted to. -/
  today : Date

namespace Subject

/-- The value of a field, if it is present and not null. -/
def valueOf? (s : Subject) (field : String) : Option Value :=
  s.record.present? field

/-- The value of the field that is checked, if it is present and not null. -/
def value? (s : Subject) : Option Value :=
  s.valueOf? s.field

end Subject

/-- A test of a subject with the parameters of a rule; `true` means that it passes. -/
abbrev Check := Subject → List Param → Bool

/-- A rule. -/
structure Definition where
  check : Check
  /-- The message for subjects that do not. -/
  message : String
  /-- How many parameters the rule takes. -/
  arity : Nat

/-- Rules and default messages by name. -/
structure Registry where
  rules : Dict Definition
  messages : Dict String
  /-- Every rule has a default message. -/
  described : ∀ name, (rules.get? name).isSome → (messages.get? name).isSome

namespace Registry

/-- No rules and no messages. -/
def empty : Registry where
  rules := ∅
  messages := ∅
  described := by
    intro name h
    exact h

/-- Adds or replaces a rule together with its default message. -/
def define (r : Registry) (name : String) (rule : Definition) : Registry where
  rules := r.rules.insert name rule
  messages := r.messages.insert name rule.message
  described := by
    intro other h
    rw [Dict.get?_insert] at h ⊢
    by_cases hname : other = name
    · rw [if_pos hname]
      rfl
    · rw [if_neg hname] at h ⊢
      exact r.described other h

/-- Adds or replaces a default message. -/
def describe (r : Registry) (name message : String) : Registry where
  rules := r.rules
  messages := r.messages.insert name message
  described := by
    intro other h
    rw [Dict.get?_insert]
    by_cases hname : other = name
    · rw [if_pos hname]
      rfl
    · rw [if_neg hname]
      exact r.described other h

/-- The rule of a name. -/
def get? (r : Registry) (name : String) : Option Definition :=
  r.rules.get? name

/-- The default message of a name. -/
def message? (r : Registry) (name : String) : Option String :=
  r.messages.get? name

/-- The names of all rules, in order. -/
def names (r : Registry) : List String :=
  r.rules.keys

end Registry

end Intake.Rule
