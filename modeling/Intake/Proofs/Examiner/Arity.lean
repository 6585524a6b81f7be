import Intake.Proofs.Examiner.Decomposition
import Intake.Proofs.Examiner.Refusals
import Intake.Proofs.Rule.Reads

/-!
# Missing and further parameters

A rule says how many parameters it takes.  Nothing in the test of a rule is bound to this number,
but the standard rules keep to it: they look at no parameter behind that many, and with fewer
they fail on every field that is there.

* `Definition.KeepsArity`: the test of a rule keeps to the number of its parameters.
* `Registry.keepsArity_of_standard`: the standard rules do.
* `Examiner.standard_rules_keep_their_arity`: what this means for chains that give a rule too few
  parameters.
-/

namespace Intake

open Rule Message

namespace Rule

/-- The test of a rule looks at no more parameters than the rule takes, and fails with fewer on a
field that is there. -/
structure Definition.KeepsArity (rule : Definition) : Prop where
  ignores : ∀ s params, rule.check s params = rule.check s (params.take rule.arity)
  needs : ∀ s params, params.length < rule.arity → s.value?.isSome = true →
    rule.check s params = false

namespace Definition

variable {check : Check} {message : String}

theorem keepsArity_zero (h : ∀ s params, check s params = check s []) :
    KeepsArity ⟨check, message, 0⟩ where
  ignores := h
  needs _ params hlength := absurd hlength (Nat.not_lt_zero params.length)

theorem keepsArity_one (hmore : ∀ s param rest, check s (param :: rest) = check s [param])
    (hnone : ∀ s v, s.value? = some v → check s [] = false) :
    KeepsArity ⟨check, message, 1⟩ where
  ignores s params := by
    cases params with
    | nil => rfl
    | cons param rest => exact hmore s param rest
  needs s params hlength hvalue := by
    obtain ⟨v, hv⟩ := Option.isSome_iff_exists.1 hvalue
    rw [List.length_eq_zero_iff.1 (Nat.lt_one_iff.1 hlength)]
    exact hnone s v hv

end Definition

namespace Checks

/-- A number that is not given limits no length. -/
theorem lengthIs_none (test : Int → Int → Bool) (v : Value) : lengthIs test none v = false := by
  unfold lengthIs
  cases v.text? <;> rfl

/-- The length of a field that is there has to be limited from both sides. -/
theorem between_of_value {s : Subject} {v : Value} (h : s.value? = some v) (params : List Param)
    (hshort : intParam? params 1 = none) : between s params = false := by
  show ifPresent _ s = false
  rw [ifPresent_of_value h, hshort]
  cases v.text? with
  | none => rfl
  | some text => cases intParam? params 0 <;> rfl

theorem keepsArity_between (message : String) :
    Definition.KeepsArity ⟨between, message, 2⟩ where
  ignores s params := by
    cases params with
    | nil => rfl
    | cons low rest => cases rest <;> rfl
  needs s params hlength hvalue := by
    obtain ⟨v, hv⟩ := Option.isSome_iff_exists.1 hvalue
    refine between_of_value hv params ?_
    rw [intParam?, List.getElem?_eq_none (Nat.le_of_lt_succ hlength)]
    rfl

theorem iso_nil [PhoneDirectory] {s : Subject} {v : Value} (h : s.value? = some v) :
    iso s [] = false := by
  show ifPresent _ s = false
  rw [ifPresent_of_value h]
  cases v.text? <;> rfl

theorem minAge_nil {s : Subject} {v : Value} (h : s.value? = some v) : minAge s [] = false := by
  show ifPresent _ s = false
  rw [ifPresent_of_value h]
  cases v.text?.bind Date.read? <;> rfl

end Checks

open Definition in
/-- **The standard rules keep to the number of their parameters.** -/
theorem Registry.keepsArity_of_standard [PhoneDirectory] {name : String} {rule : Definition}
    (h : Registry.standard.get? name = some rule) : rule.KeepsArity := by
  refine Registry.standard_cases (P := fun _ rule => rule.KeepsArity)
    ?required ?email ?min ?max ?between ?same ?alphanumeric ?secure ?number ?phone ?url ?iso
    ?minAge h
  case min =>
    exact fun _ => keepsArity_one (fun _ _ _ => rfl) fun s v hv =>
      (Checks.ifPresent_of_value hv _).trans (Checks.lengthIs_none _ v)
  case max =>
    exact fun _ => keepsArity_one (fun _ _ _ => rfl) fun s v hv =>
      (Checks.ifPresent_of_value hv _).trans (Checks.lengthIs_none _ v)
  case between => exact Checks.keepsArity_between
  case same => exact fun _ => keepsArity_one (fun _ _ _ => rfl) fun _ _ _ => rfl
  case iso => exact fun _ => keepsArity_one (fun _ _ _ => rfl) fun _ _ hv => Checks.iso_nil hv
  case minAge =>
    exact fun _ => keepsArity_one (fun _ _ _ => rfl) fun _ _ hv => Checks.minAge_nil hv
  -- the other rules take no parameters
  all_goals exact fun _ => keepsArity_zero fun _ _ => rfl

end Rule

namespace Examiner

variable {x : Examiner} {texts : Dict String} {chains : List Chain} {chain : Chain} {call : Call}
  {rule : Definition}

/-- A field fails if and only if some call in its compiled chain rejects it. -/
theorem contains_examine_iff_of_mem (h : x.compile texts = .ok chains) (hchain : chain ∈ chains)
    (today : Date) (r : Record) (w : Wording) :
    (x.examine today r chains w).contains chain.field = true ↔
      ∃ call ∈ chain.calls, x.rejects ⟨r, chain.field, today⟩ call = true := by
  obtain ⟨text, htext, hread⟩ := exists_text_of_mem_compile h hchain
  exact contains_examine_iff h htext hread today r w

theorem rejects_eq_not_check (hrule : x.registry.get? call.name = some rule) (subject : Subject) :
    x.rejects subject call = !rule.check subject call.params := by
  unfold rejects
  rw [hrule]

theorem callProblem?_of_short (hrule : x.registry.get? call.name = some rule)
    (hshort : call.params.length < rule.arity) (field : String) :
    x.callProblem? field call =
      some (.missingParams field call.name rule.arity call.params.length) := by
  unfold callProblem?
  rw [hrule]
  exact if_pos hshort

/-- A strict examiner refuses chains that compile leniently if it has a problem with a call. -/
theorem exists_compile_eq_error {registry : Registry} {problem : Problem}
    (h : compile ⟨registry, false⟩ texts = .ok chains) (hchain : chain ∈ chains)
    (hcall : call ∈ chain.calls)
    (hproblem : callProblem? ⟨registry, true⟩ chain.field call = some problem) :
    ∃ first, compile ⟨registry, true⟩ texts = .error first := by
  cases hstrict : compile ⟨registry, true⟩ texts with
  | error first => exact ⟨first, rfl⟩
  | ok compiled =>
    obtain rfl : compiled = chains := Except.ok.inj ((compile_lenient hstrict).symm.trans h)
    obtain ⟨e, -, hcompile⟩ := exists_mem_of_mapM_eq_ok hstrict hchain
    have hnone := ((compileField_eq_ok_iff _ _ _ _).1 hcompile).2
    rw [chainProblem?, if_pos rfl, List.findSome?_eq_none_iff] at hnone
    rw [hnone call hcall] at hproblem
    cases hproblem

/-- **The standard rules keep to the number of their parameters.**  Further parameters never change
a verdict, and with fewer a field that is there always fails.  So where a chain gives a standard
rule too few parameters, a lenient examiner fails every record that has the field, and a strict one
takes this call for a problem and refuses the chains.  This holds with every directory of telephone
numbers. -/
theorem standard_rules_keep_their_arity [PhoneDirectory] {name : String}
    (hrule : Registry.standard.get? name = some rule) :
    (∀ s params, rule.check s params = rule.check s (params.take rule.arity)) ∧
    (∀ s params, params.length < rule.arity → s.value?.isSome = true →
      rule.check s params = false) ∧
    ∀ texts chains, compile ⟨.standard, false⟩ texts = .ok chains →
      ∀ chain ∈ chains, ∀ params, ⟨name, params⟩ ∈ chain.calls → params.length < rule.arity →
        (∀ today r w, (r.present? chain.field).isSome = true → ∃ failures,
          validate ⟨.standard, false⟩ today r texts w = .ok failures ∧
            failures.contains chain.field = true) ∧
        callProblem? ⟨.standard, true⟩ chain.field ⟨name, params⟩ =
          some (.missingParams chain.field name rule.arity params.length) ∧
        ∃ problem, compile ⟨.standard, true⟩ texts = .error problem := by
  have hkeeps := Registry.keepsArity_of_standard hrule
  refine ⟨hkeeps.ignores, hkeeps.needs, fun texts chains h chain hchain params hcall hshort => ?_⟩
  have hproblem : callProblem? ⟨.standard, true⟩ chain.field ⟨name, params⟩ =
      some (.missingParams chain.field name rule.arity params.length) :=
    callProblem?_of_short hrule hshort chain.field
  refine ⟨fun today r w hpresent => ?_, hproblem,
    exists_compile_eq_error h hchain hcall hproblem⟩
  have hfails : rule.check ⟨r, chain.field, today⟩ params = false :=
    hkeeps.needs ⟨r, chain.field, today⟩ params hshort hpresent
  refine ⟨_, validate_of_compile h today r w, ?_⟩
  rw [contains_examine_iff_of_mem h hchain]
  exact ⟨_, hcall, (rejects_eq_not_check hrule _).trans (congrArg not hfails)⟩

open TwoCountries in
/-- A name whose length is to lie between three and nothing fails, or the chain is refused. -/
theorem standard_rules_keep_their_arity_of_between :
    let texts : Dict String := Dict.ofList [("name", "required|between:3")]
    let r : Record := Dict.ofList [("name", .text "Alice")]
    Registry.standard.get? "between" =
      some ⟨Checks.between, "The %s must have between %d and %d characters", 2⟩ ∧
    (∃ failures, validate ⟨.standard, false⟩ ⟨2024, 6, 15, by decide⟩ r texts .empty =
      .ok failures ∧ failures.contains "name" = true) ∧
    ∃ problem, compile ⟨.standard, true⟩ texts = .error problem := by
  intro texts r
  have hrule : Registry.standard.get? "between" =
      some ⟨Checks.between, "The %s must have between %d and %d characters", 2⟩ := by
    rw [Registry.get?_standard]
    rfl
  let name : Chain := ⟨"name", [⟨"required", []⟩, ⟨"between", [.int 3]⟩]⟩
  have hcompile : compile ⟨.standard, false⟩ texts = .ok [name] := rfl
  obtain ⟨-, -, hshort⟩ := standard_rules_keep_their_arity hrule
  obtain ⟨hfails, -, hrefused⟩ := hshort texts [name] hcompile name (List.mem_singleton_self _)
    [.int 3] (by simp [name]) (by decide)
  exact ⟨hrule, hfails _ r .empty rfl, hrefused⟩

end Examiner

end Intake
