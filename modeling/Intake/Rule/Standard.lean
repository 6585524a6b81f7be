import Intake.Rule.Checks

/-!
# The standard rules

`standard` is the registry of the rules that every form can use, with their messages.  The
name `unique` has a message only: whether a value is taken already is checked elsewhere.

The rule `iso` asks a directory of telephone numbers, which is a parameter of the registry.
-/

namespace Intake.Rule

/-- The standard rules by name. -/
def standardRules [PhoneDirectory] : List (String × Definition) :=
  [("required", ⟨Checks.required, "Please enter the %s", 0⟩),
   ("email", ⟨Checks.email, "The %s is not a valid email address", 0⟩),
   ("min", ⟨Checks.min, "The %s must have at least %s characters", 1⟩),
   ("max", ⟨Checks.max, "The %s must have at most %s characters", 1⟩),
   ("between", ⟨Checks.between, "The %s must have between %d and %d characters", 2⟩),
   ("same", ⟨Checks.same, "The %s must match with %s", 1⟩),
   ("alphanumeric",
    ⟨Checks.alphanumeric, "The %s should have only letters and numbers", 0⟩),
   ("secure",
    ⟨Checks.secure,
      "The %s must have between 8 and 64 characters and contain at least one number, " ++
      "one upper case letter, one lower case letter and one special character example " ++
      "(!@#$%^&*+_)", 0⟩),
   ("number", ⟨Checks.number, "The %s must be numeric", 0⟩),
   ("phone", ⟨Checks.phone, "The %s must be a valid phone number", 0⟩),
   ("url", ⟨Checks.url, "The %s must be a valid URL", 0⟩),
   ("iso", ⟨Checks.iso, "The %s must be a valid phone number", 1⟩),
   ("minAge", ⟨Checks.minAge, "The %s must be older than the minimum age", 1⟩)]

/-- The names that have a default message but no rule. -/
def standardMessages : List (String × String) :=
  [("unique", "The %s already exists")]

namespace Registry

/-- The registry of the standard rules. -/
def standard [PhoneDirectory] : Registry :=
  let rules := standardRules.foldl (fun r e => r.define e.1 e.2) empty
  standardMessages.foldl (fun r e => r.describe e.1 e.2) rules

/-! ### Looking up a standard rule -/

/-- Additions one after the other store their entries in a table where each stores its own. -/
theorem foldl_eq_insertMany {α β : Type} {add : Registry → α → Registry}
    (table : Registry → Dict β) (entry : α → String × β)
    (step : ∀ r a, table (add r a) = (table r).insert (entry a).1 (entry a).2) (r : Registry)
    (additions : List α) :
    table (additions.foldl add r) = (table r).insertMany (additions.map entry) := by
  induction additions generalizing r with
  | nil => rfl
  | cons a rest ih =>
    rw [List.foldl_cons, ih, step]
    rfl

/-- Adding default messages leaves the rules as they are. -/
theorem rules_foldl_describe (r : Registry) (messages : List (String × String)) :
    (messages.foldl (fun r e => r.describe e.1 e.2) r).rules = r.rules := by
  induction messages generalizing r with
  | nil => rfl
  | cons e rest ih =>
    rw [List.foldl_cons, ih]
    rfl

variable [PhoneDirectory]

/-- Looking up a standard rule goes through the list of them. -/
theorem get?_standard (name : String) :
    standard.get? name = standardRules.reverse.lookup name := by
  have hrules : standard.rules = Dict.ofList standardRules := by
    unfold standard
    rw [rules_foldl_describe, foldl_eq_insertMany rules id fun _ _ => rfl, List.map_id]
    rfl
  rw [Registry.get?, hrules, Dict.get?_ofList]

/-- Looking up a default message goes through the standard rules and the other messages. -/
theorem message?_standard (name : String) :
    standard.message? name = ((standardRules.map fun e => (e.1, e.2.message)) ++
      standardMessages).reverse.lookup name := by
  have hmessages : standard.messages = Dict.ofList
      ((standardRules.map fun e => (e.1, e.2.message)) ++ standardMessages) := by
    unfold standard
    rw [foldl_eq_insertMany messages id fun _ _ => rfl, List.map_id,
      foldl_eq_insertMany messages (fun e => (e.1, e.2.message)) fun _ _ => rfl, Dict.ofList,
      Dict.insertMany_append]
    rfl
  rw [Registry.message?, hmessages, Dict.get?_ofList]

/-- A rule found in the standard registry is one of the standard rules. -/
theorem mem_standardRules {name : String} {rule : Definition}
    (h : standard.get? name = some rule) : (name, rule) ∈ standardRules := by
  rw [get?_standard] at h
  exact List.mem_reverse.1 (Dict.mem_of_lookup h)

/-- What is shown rule by rule holds of every standard rule; messages do not matter to it. -/
theorem standard_cases {P : String → Definition → Prop}
    (required : ∀ message, P "required" ⟨Checks.required, message, 0⟩)
    (email : ∀ message, P "email" ⟨Checks.email, message, 0⟩)
    (min : ∀ message, P "min" ⟨Checks.min, message, 1⟩)
    (max : ∀ message, P "max" ⟨Checks.max, message, 1⟩)
    (between : ∀ message, P "between" ⟨Checks.between, message, 2⟩)
    (same : ∀ message, P "same" ⟨Checks.same, message, 1⟩)
    (alphanumeric : ∀ message, P "alphanumeric" ⟨Checks.alphanumeric, message, 0⟩)
    (secure : ∀ message, P "secure" ⟨Checks.secure, message, 0⟩)
    (number : ∀ message, P "number" ⟨Checks.number, message, 0⟩)
    (phone : ∀ message, P "phone" ⟨Checks.phone, message, 0⟩)
    (url : ∀ message, P "url" ⟨Checks.url, message, 0⟩)
    (iso : ∀ message, P "iso" ⟨Checks.iso, message, 1⟩)
    (minAge : ∀ message, P "minAge" ⟨Checks.minAge, message, 1⟩)
    {name : String} {rule : Definition} (h : standard.get? name = some rule) : P name rule := by
  have hmem := mem_standardRules h
  simp only [standardRules, List.mem_cons, Prod.mk.injEq, List.not_mem_nil, or_false] at hmem
  -- one case for each standard rule, in the order of the registry
  rcases hmem with ⟨rfl, rfl⟩ | ⟨rfl, rfl⟩ | ⟨rfl, rfl⟩ | ⟨rfl, rfl⟩ | ⟨rfl, rfl⟩ | ⟨rfl, rfl⟩ |
    ⟨rfl, rfl⟩ | ⟨rfl, rfl⟩ | ⟨rfl, rfl⟩ | ⟨rfl, rfl⟩ | ⟨rfl, rfl⟩ | ⟨rfl, rfl⟩ | ⟨rfl, rfl⟩
  · exact required _
  · exact email _
  · exact min _
  · exact max _
  · exact between _
  · exact same _
  · exact alphanumeric _
  · exact secure _
  · exact number _
  · exact phone _
  · exact url _
  · exact iso _
  · exact minAge _

end Registry

end Intake.Rule
