import Intake.Form
import Intake.Proofs.FirstFailure

/-!
# Compiling chains

An examiner compiles the chains of all fields in the order of the fields.

* `Examiner.compile_eq_error_iff`: this fails with the first chain that does not compile.
* `Examiner.compile_singleton` and `Examiner.problem?_compile_singleton`: a chain compiled alone
  fails as it does among others.
* `Examiner.exists_text_of_mem_compile`: what is compiled is what was read for each field.
* `Examiner.validate_eq_map`: validating is compiling and then examining.
-/

namespace Intake

open Rule Message

theorem Rule.Chain.field_of_read {field text : String} {chain : Chain}
    (h : Chain.read field text = .ok chain) : chain.field = field := by
  have hread : Chain.read field text =
      ((Chain.tokens text).mapM (Call.read field)).map (Chain.mk field) := rfl
  rw [hread] at h
  cases hcalls : (Chain.tokens text).mapM (Call.read field) with
  | error problem =>
    rw [hcalls] at h
    cases h
  | ok calls =>
    rw [hcalls] at h
    rw [← Except.ok.inj h]

theorem problem?_eq_none_iff {α : Type} (result : Except Problem α) :
    problem? result = none ↔ ∃ a, result = .ok a := by
  cases result with
  | error problem =>
    constructor
    · intro h
      cases h
    · rintro ⟨a, h⟩
      cases h
  | ok a => exact ⟨fun _ => ⟨a, rfl⟩, fun _ => rfl⟩

theorem problem?_eq_some_iff {α : Type} (result : Except Problem α) (problem : Problem) :
    problem? result = some problem ↔ result = .error problem := by
  cases result with
  | error problem' => simp [problem?]
  | ok a => simp [problem?]

namespace Examiner

theorem compile_eq_error_iff (x : Examiner) (chains : Dict String) (problem : Problem) :
    x.compile chains = .error problem ↔
      FirstFailure (fun e => x.compileField e.1 e.2) chains.entries problem :=
  mapM_eq_error_iff _ _ _

theorem exists_compile_eq_ok_iff (x : Examiner) (chains : Dict String) :
    (∃ compiled, x.compile chains = .ok compiled) ↔
      ∀ e ∈ chains.entries, ∃ chain, x.compileField e.1 e.2 = .ok chain :=
  exists_mapM_eq_ok_iff _ _

theorem compile_singleton (x : Examiner) (e : String × String) :
    x.compile (Dict.ofList [e]) = (x.compileField e.1 e.2).map ([·]) := by
  let f := fun e : String × String => x.compileField e.1 e.2
  show [e].mapM f = (f e).map ([·])
  cases h : f e with
  | error problem => exact mapM_cons_of_error h []
  | ok chain => exact mapM_cons_of_ok h []

/-- A chain compiled alone fails as it does among others. -/
theorem problem?_compile_singleton (x : Examiner) (e : String × String) :
    problem? (x.compile (Dict.ofList [e])) = problem? (x.compileField e.1 e.2) := by
  rw [compile_singleton]
  cases x.compileField e.1 e.2 <;> rfl

/-- Compiling a chain reads it and looks for a problem with it. -/
theorem compileField_eq_ok_iff (x : Examiner) (field text : String) (chain : Chain) :
    x.compileField field text = .ok chain ↔
      Chain.read field text = .ok chain ∧ x.chainProblem? chain = none := by
  unfold compileField
  cases hread : Chain.read field text with
  | error problem => simp [bind, Except.bind]
  | ok chain' =>
    cases hproblem : x.chainProblem? chain' with
    | some problem =>
      simp only [bind, Except.bind, hproblem, Except.ok.injEq]
      constructor
      · intro h
        cases h
      · rintro ⟨rfl, hnone⟩
        rw [hproblem] at hnone
        cases hnone
    | none =>
      simp only [bind, Except.bind, hproblem, Except.ok.injEq]
      constructor
      · rintro rfl
        exact ⟨rfl, hproblem⟩
      · rintro ⟨rfl, -⟩
        rfl

theorem compileField_eq_error_iff (x : Examiner) (field text : String) (problem : Problem) :
    x.compileField field text = .error problem ↔
      Chain.read field text = .error problem ∨
        ∃ chain, Chain.read field text = .ok chain ∧ x.chainProblem? chain = some problem := by
  unfold compileField
  cases hread : Chain.read field text with
  | error problem => simp [bind, Except.bind]
  | ok chain' =>
    cases hproblem : x.chainProblem? chain' with
    | some problem => simp [hproblem, bind, Except.bind]
    | none => simp [hproblem, bind, Except.bind]

/-- A compiled chain is the chain that was read. -/
theorem read_of_compileField {x : Examiner} {field text : String} {chain : Chain}
    (h : x.compileField field text = .ok chain) : Chain.read field text = .ok chain :=
  ((x.compileField_eq_ok_iff field text chain).1 h).1

/-- Every compiled chain was read for its field. -/
theorem exists_text_of_mem_compile {x : Examiner} {texts : Dict String} {chains : List Chain}
    (h : x.compile texts = .ok chains) {chain : Chain} (hchain : chain ∈ chains) :
    ∃ text, texts.get? chain.field = some text ∧ Chain.read chain.field text = .ok chain := by
  obtain ⟨⟨field, text⟩, hmem, hcompile⟩ := exists_mem_of_mapM_eq_ok h hchain
  have hread := read_of_compileField hcompile
  obtain rfl : chain.field = field := Chain.field_of_read hread
  exact ⟨text, (texts.mem_entries_iff _).1 hmem, hread⟩

theorem validate_eq_map (x : Examiner) (today : Date) (r : Record) (texts : Dict String)
    (w : Wording) :
    x.validate today r texts w =
      (x.compile texts).map fun chains => x.examine today r chains w := by
  show (x.compile texts).bind _ = _
  cases x.compile texts <;> rfl

end Examiner

end Intake
