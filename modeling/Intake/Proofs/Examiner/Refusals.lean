import Intake.Phone.Plans
import Intake.Proofs.Examiner.Compiling
import Intake.Proofs.Rule.Tokens

/-!
# What examiners refuse

Compiling stops at the first field with a problem.  Within its chain a nameless token comes
first, wherever it stands; after that a strict examiner looks for the first token that uses
no registered rule or gives too few parameters.

* `Misuse` is the problem with such a token.
* `Examiner.ChainProblem` is the problem with the chain of a field, and
  `Examiner.compileField_eq_error_iff` says that compiling this chain fails with it.
* `Examiner.compile_eq_error_iff_first`: compiling all chains fails with that of the first
  field that has one.
* `Examiner.compile_refuses_first` spells this out for both kinds of examiners and compares
  them.
-/

namespace Intake

open Rule Message

namespace Rule

/-- Whether a token names no registered rule or gives it too few parameters. -/
def Registry.misuses (registry : Registry) (token : String) : Bool :=
  !(registry.get? (Call.nameOf token)).any fun rule =>
    rule.arity ≤ (Call.paramsOf token).length

/-- The problem with a token that names no registered rule or gives it too few parameters. -/
inductive Misuse (registry : Registry) (field token : String) : Problem → Prop where
  | unknown (missing : registry.get? (Call.nameOf token) = none) :
      Misuse registry field token (.unknownRule field (Call.nameOf token))
  | short {rule : Definition} (found : registry.get? (Call.nameOf token) = some rule)
      (fewer : (Call.paramsOf token).length < rule.arity) :
      Misuse registry field token
        (.missingParams field (Call.nameOf token) rule.arity (Call.paramsOf token).length)

theorem Registry.misuses_eq_false_iff (registry : Registry) (token : String) :
    registry.misuses token = false ↔
      ∃ rule, registry.get? (Call.nameOf token) = some rule ∧
        rule.arity ≤ (Call.paramsOf token).length := by
  unfold misuses
  rw [Bool.not_eq_false', Option.any_eq_true]
  simp

end Rule

namespace Examiner

/-! ### The problem with one token -/

theorem callProblem?_ofToken (x : Examiner) (field token : String) (problem : Problem) :
    x.callProblem? field (Call.ofToken token) = some problem ↔
      Misuse x.registry field token problem := by
  have hname : (Call.ofToken token).name = Call.nameOf token := rfl
  unfold callProblem?
  rw [hname, Call.length_params_ofToken]
  cases hrule : x.registry.get? (Call.nameOf token) with
  | none =>
    constructor
    · intro h
      rw [← Option.some.inj h]
      exact .unknown hrule
    · intro h
      cases h with
      | unknown missing => rfl
      | short found fewer => rw [hrule] at found; cases found
  | some rule =>
    simp only
    constructor
    · intro h
      split at h
      · rename_i hfewer
        rw [← Option.some.inj h]
        exact .short hrule hfewer
      · cases h
    · intro h
      cases h with
      | unknown missing => rw [hrule] at missing; cases missing
      | short found fewer =>
        obtain rfl := Option.some.inj (hrule.symm.trans found)
        rw [if_pos fewer]

theorem isSome_callProblem?_ofToken (x : Examiner) (field token : String) :
    (x.callProblem? field (Call.ofToken token)).isSome = x.registry.misuses token := by
  have hname : (Call.ofToken token).name = Call.nameOf token := rfl
  unfold callProblem? Registry.misuses
  rw [hname, Call.length_params_ofToken]
  cases x.registry.get? (Call.nameOf token) with
  | none => rfl
  | some rule =>
    by_cases h : (Call.paramsOf token).length < rule.arity
    · simp [h]
    · simp [h, Nat.le_of_not_lt h]

/-! ### The problem with a chain -/

/-- The problem with the chain of a field: its first nameless token; if there is none and
rules are taken strictly, the first token that misuses a rule. -/
inductive ChainProblem (x : Examiner) (field text : String) : Problem → Prop where
  | nameless {token : String}
      (first : (Chain.tokens text).find? Chain.isNameless = some token) :
      ChainProblem x field text (.namelessRule field token)
  | misuse {token : String} {problem : Problem} (strict : x.strict = true)
      (named : (Chain.tokens text).find? Chain.isNameless = none)
      (first : (Chain.tokens text).find? x.registry.misuses = some token)
      (misuse : Misuse x.registry field token problem) : ChainProblem x field text problem

/-- Whether a chain with this token has a problem. -/
def refuses (x : Examiner) (token : String) : Bool :=
  Chain.isNameless token || (x.strict && x.registry.misuses token)

/-- A strict examiner looks for the first token that misuses a rule. -/
theorem chainProblem?_eq_some_iff (x : Examiner) (field : String) (tokens : List String)
    (problem : Problem) :
    x.chainProblem? ⟨field, tokens.map Call.ofToken⟩ = some problem ↔
      x.strict = true ∧ ∃ token, tokens.find? x.registry.misuses = some token ∧
        Misuse x.registry field token problem := by
  unfold chainProblem?
  cases hstrict : x.strict with
  | false => simp
  | true =>
    have hmisuses : x.registry.misuses =
        fun token => (x.callProblem? field (Call.ofToken token)).isSome :=
      funext fun token => (x.isSome_callProblem?_ofToken field token).symm
    rw [hmisuses, if_pos rfl, List.findSome?_map, findSome?_eq_some_iff_find?]
    simp only [true_and, Function.comp_apply, ← x.callProblem?_ofToken]

theorem find?_isNameless_eq_none_iff (text : String) :
    (Chain.tokens text).find? Chain.isNameless = none ↔
      ∀ token ∈ Chain.tokens text, Chain.isNameless token = false := by
  simp [List.find?_eq_none]

/-- **Compiling the chain of a field fails with its problem.** -/
theorem compileField_eq_error_iff_problem (x : Examiner) (field text : String)
    (problem : Problem) :
    x.compileField field text = .error problem ↔ ChainProblem x field text problem := by
  rw [compileField_eq_error_iff, Chain.read_eq_error_iff]
  constructor
  · rintro (⟨token, hfirst, rfl⟩ | ⟨chain, hread, hproblem⟩)
    · exact .nameless hfirst
    · obtain ⟨hnamed, rfl⟩ := (Chain.read_eq_ok_iff field text chain).1 hread
      obtain ⟨hstrict, token, hfirst, hmisuse⟩ :=
        (x.chainProblem?_eq_some_iff field _ problem).1 hproblem
      exact .misuse hstrict ((find?_isNameless_eq_none_iff text).2 hnamed) hfirst hmisuse
  · intro h
    cases h with
    | nameless first => exact Or.inl ⟨_, first, rfl⟩
    | misuse strict named first misuse =>
      have hnamed := (find?_isNameless_eq_none_iff text).1 named
      refine Or.inr ⟨_, (Chain.read_eq_ok_iff field text _).2 ⟨hnamed, rfl⟩, ?_⟩
      exact (x.chainProblem?_eq_some_iff field _ problem).2 ⟨strict, _, first, misuse⟩

/-- A chain has a problem if and only if some token in it is refused. -/
theorem any_refuses_iff (x : Examiner) (field text : String) :
    (Chain.tokens text).any x.refuses = true ↔
      ∃ problem, x.compileField field text = .error problem := by
  simp only [compileField_eq_error_iff_problem]
  constructor
  · intro h
    cases hnamed : (Chain.tokens text).find? Chain.isNameless with
    | some token => exact ⟨_, .nameless hnamed⟩
    | none =>
      obtain ⟨token, htoken, hrefuses⟩ := List.any_eq_true.1 h
      have hname := (find?_isNameless_eq_none_iff text).1 hnamed token htoken
      rw [refuses, hname, Bool.false_or, Bool.and_eq_true] at hrefuses
      obtain ⟨hstrict, hmisuses⟩ := hrefuses
      obtain ⟨first, hfirst⟩ := Option.isSome_iff_exists.1
        (List.find?_isSome.2 ⟨token, htoken, hmisuses⟩)
      have hsome := List.find?_some hfirst
      rw [← x.isSome_callProblem?_ofToken field] at hsome
      obtain ⟨problem, hproblem⟩ := Option.isSome_iff_exists.1 hsome
      exact ⟨problem, .misuse hstrict hnamed hfirst
        ((x.callProblem?_ofToken field first problem).1 hproblem)⟩
  · rintro ⟨problem, h⟩
    rw [List.any_eq_true]
    cases h with
    | nameless first =>
      refine ⟨_, List.mem_of_find?_eq_some first, ?_⟩
      rw [refuses, List.find?_some first, Bool.true_or]
    | misuse strict named first misuse =>
      refine ⟨_, List.mem_of_find?_eq_some first, ?_⟩
      rw [refuses, strict, List.find?_some first, Bool.and_true, Bool.or_true]

/-! ### The problem with all chains -/

/-- **Compiling fails with the problem of the first field that has one.** -/
theorem compile_eq_error_iff_first (x : Examiner) (chains : Dict String) (problem : Problem) :
    x.compile chains = .error problem ↔
      ∃ e, chains.entries.find? (fun e => (Chain.tokens e.2).any x.refuses) = some e ∧
        ChainProblem x e.1 e.2 problem := by
  rw [compile_eq_error_iff, firstFailure_iff_find? fun e _ => x.any_refuses_iff e.1 e.2]
  simp only [compileField_eq_error_iff_problem]

theorem exists_compile_eq_ok_iff_refuses (x : Examiner) (chains : Dict String) :
    (∃ compiled, x.compile chains = .ok compiled) ↔
      ∀ e ∈ chains.entries, ∀ token ∈ Chain.tokens e.2, x.refuses token = false := by
  rw [exists_compile_eq_ok_iff]
  refine forall₂_congr fun e _ => ?_
  have hrefuses := x.any_refuses_iff e.1 e.2
  cases hcompile : x.compileField e.1 e.2 with
  | ok chain =>
    rw [hcompile] at hrefuses
    have hnone : (Chain.tokens e.2).any x.refuses = false := by
      rw [← Bool.not_eq_true, hrefuses]
      simp
    simpa using hnone
  | error problem =>
    rw [hcompile] at hrefuses
    have hsome : (Chain.tokens e.2).any x.refuses = true := hrefuses.2 ⟨problem, rfl⟩
    simpa using hsome

/-! ### Lenient and strict examiners -/

theorem refuses_lenient (registry : Registry) (token : String) :
    refuses ⟨registry, false⟩ token = Chain.isNameless token :=
  Bool.or_false _

theorem refuses_strict (registry : Registry) (token : String) :
    refuses ⟨registry, true⟩ token = (Chain.isNameless token || registry.misuses token) :=
  congrArg (Chain.isNameless token || ·) (Bool.true_and _)

theorem chainProblem_lenient_iff (registry : Registry) (field text : String)
    (problem : Problem) :
    ChainProblem ⟨registry, false⟩ field text problem ↔
      ∃ token, (Chain.tokens text).find? Chain.isNameless = some token ∧
        problem = .namelessRule field token := by
  constructor
  · intro h
    cases h with
    | nameless first => exact ⟨_, first, rfl⟩
    | misuse strict named first misuse => cases strict
  · rintro ⟨token, hfirst, rfl⟩
    exact .nameless hfirst

theorem chainProblem_strict_iff (registry : Registry) (field text : String)
    (problem : Problem) :
    ChainProblem ⟨registry, true⟩ field text problem ↔
      (∃ token, (Chain.tokens text).find? Chain.isNameless = some token ∧
        problem = .namelessRule field token) ∨
      (∀ token ∈ Chain.tokens text, Chain.isNameless token = false) ∧
        ∃ token, (Chain.tokens text).find? registry.misuses = some token ∧
          Misuse registry field token problem := by
  constructor
  · intro h
    cases h with
    | nameless first => exact Or.inl ⟨_, first, rfl⟩
    | misuse strict named first misuse =>
      exact Or.inr ⟨(find?_isNameless_eq_none_iff text).1 named, _, first, misuse⟩
  · rintro (⟨token, hfirst, rfl⟩ | ⟨hnamed, token, hfirst, hmisuse⟩)
    · exact .nameless hfirst
    · exact .misuse rfl ((find?_isNameless_eq_none_iff text).2 hnamed) hfirst hmisuse

/-- A chain that compiles strictly compiles leniently, too. -/
theorem compileField_lenient {registry : Registry} {field text : String} {chain : Chain}
    (h : compileField ⟨registry, true⟩ field text = .ok chain) :
    compileField ⟨registry, false⟩ field text = .ok chain :=
  (compileField_eq_ok_iff _ field text chain).2 ⟨read_of_compileField h, rfl⟩

theorem compile_lenient {registry : Registry} {chains : Dict String} {compiled : List Chain}
    (h : compile ⟨registry, true⟩ chains = .ok compiled) :
    compile ⟨registry, false⟩ chains = .ok compiled := by
  have hstrict := (mapM_eq_ok_iff _ _ _).1 h
  exact (mapM_eq_ok_iff _ _ _).2 (hstrict.imp fun _ _ => compileField_lenient)

theorem validate_of_compile {x : Examiner} {chains : Dict String} {compiled : List Chain}
    (h : x.compile chains = .ok compiled) (today : Date) (r : Record) (w : Wording) :
    x.validate today r chains w = .ok (x.examine today r compiled w) := by
  rw [validate_eq_map, h]
  rfl

/-- **What compiling refuses.**  A lenient examiner refuses exactly the chains with a nameless
token, and reports the first such token of the first such field.  A strict one also refuses
tokens that misuse a rule.  It reports the first field with any problem, and within its chain
the first nameless token, or if there is none, the first misuse.  What compiles strictly
compiles leniently to the same chains, and every record is validated alike. -/
theorem compile_refuses_first (registry : Registry) (chains : Dict String) :
    let lenient : Examiner := ⟨registry, false⟩
    let strict : Examiner := ⟨registry, true⟩
    ((∃ problem, lenient.compile chains = .error problem) ↔
      ∃ e ∈ chains.entries, ∃ token ∈ Chain.tokens e.2, Chain.isNameless token = true) ∧
    (∀ problem, lenient.compile chains = .error problem ↔ ∃ e token,
      chains.entries.find? (fun e => (Chain.tokens e.2).any Chain.isNameless) = some e ∧
      (Chain.tokens e.2).find? Chain.isNameless = some token ∧
      problem = .namelessRule e.1 token) ∧
    ((∃ compiled, strict.compile chains = .ok compiled) ↔
      ∀ e ∈ chains.entries, ∀ token ∈ Chain.tokens e.2, Chain.isNameless token = false ∧
        ∃ rule, registry.get? (Call.nameOf token) = some rule ∧
          rule.arity ≤ (Call.paramsOf token).length) ∧
    (∀ problem, strict.compile chains = .error problem ↔ ∃ e,
      chains.entries.find? (fun e => (Chain.tokens e.2).any fun token =>
        Chain.isNameless token || registry.misuses token) = some e ∧
      ((∃ token, (Chain.tokens e.2).find? Chain.isNameless = some token ∧
          problem = .namelessRule e.1 token) ∨
        (∀ token ∈ Chain.tokens e.2, Chain.isNameless token = false) ∧
          ∃ token, (Chain.tokens e.2).find? registry.misuses = some token ∧
            Misuse registry e.1 token problem)) ∧
    ∀ compiled, strict.compile chains = .ok compiled →
      lenient.compile chains = .ok compiled ∧ ∀ today r w, ∃ failures,
        strict.validate today r chains w = .ok failures ∧
        lenient.validate today r chains w = .ok failures := by
  intro lenient strict
  have hlenient : lenient.refuses = Chain.isNameless := funext (refuses_lenient registry)
  have hstrict : strict.refuses = fun token => Chain.isNameless token || registry.misuses token :=
    funext (refuses_strict registry)
  refine ⟨?_, ?_, ?_, ?_, ?_⟩
  · have hok := exists_compile_eq_ok_iff_refuses lenient chains
    rw [hlenient] at hok
    cases hcompile : lenient.compile chains with
    | ok compiled =>
      have hnamed := hok.1 ⟨compiled, hcompile⟩
      simpa using hnamed
    | error problem =>
      have hnameless := mt hok.2 (by simp [hcompile])
      simpa using hnameless
  · intro problem
    rw [compile_eq_error_iff_first, hlenient]
    simp only [lenient, chainProblem_lenient_iff, exists_and_left]
  · rw [exists_compile_eq_ok_iff_refuses, hstrict]
    simp only [Bool.or_eq_false_iff, registry.misuses_eq_false_iff]
  · intro problem
    rw [compile_eq_error_iff_first, hstrict]
    simp only [strict, chainProblem_strict_iff]
  · intro compiled h
    have hcompiled : lenient.compile chains = .ok compiled := compile_lenient h
    refine ⟨hcompiled, fun today r w => ⟨_, validate_of_compile h today r w, ?_⟩⟩
    -- examining does not look at strictness
    exact validate_of_compile hcompiled today r w

/-- Chains with a missing parameter in front and a nameless token behind. -/
def faulty : Dict String :=
  Dict.ofList [("age", "number|min: , "), ("name", "nope|between:3| : 3")]

def faultless : Dict String :=
  Dict.ofList [("name", "required|between:3,20")]

open TwoCountries in
/-- A strict examiner stops at the first field, a lenient one at the second, and both compile
chains without fault alike. -/
theorem compile_refuses_first_of_faulty_and_faultless :
    let lenient : Examiner := ⟨.standard, false⟩
    let strict : Examiner := ⟨.standard, true⟩
    lenient.compile faulty = .error (.namelessRule "name" ": 3") ∧
    strict.compile faulty = .error (.missingParams "age" "min" 1 0) ∧
    ∃ compiled, strict.compile faultless = .ok compiled ∧
      lenient.compile faultless = .ok compiled ∧ ∀ today r w, ∃ failures,
        strict.validate today r faultless w = .ok failures ∧
        lenient.validate today r faultless w = .ok failures := by
  intro lenient strict
  obtain ⟨-, hlenient, -, hstrict, -⟩ := compile_refuses_first .standard faulty
  obtain ⟨-, -, -, -, hagree⟩ := compile_refuses_first .standard faultless
  refine ⟨?_, ?_, ?_⟩
  · refine (hlenient _).2 ⟨("name", "nope|between:3| : 3"), ": 3", ?_, ?_, rfl⟩
    · decide +kernel
    · decide +kernel
  · refine (hstrict _).2 ⟨("age", "number|min: , "), ?_, Or.inr ⟨?_, "min: ,", ?_, ?_⟩⟩
    · decide +kernel
    · decide +kernel
    · decide +kernel
    · exact (strict.callProblem?_ofToken "age" "min: ," _).1 (by decide +kernel)
  · obtain ⟨compiled, hcompiled⟩ := exists_eq_ok_of_isOk
      (show (strict.compile faultless).isOk = true by decide +kernel)
    exact ⟨compiled, hcompiled, hagree compiled hcompiled⟩

end Examiner

end Intake
