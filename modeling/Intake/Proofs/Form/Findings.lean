import Intake.Form.Loading
import Intake.Phone.Plans
import Intake.Proofs.Pipeline.Running

/-!
# Findings and runs

Checking a form looks at every field alone, tags first.  Running a form compiles all chains
at once and resolves the tags after that, and stops at the first problem.  Both agree on
whether there is a problem.

* `Form.findings_ne_nil_iff`: a form has findings if and only if its runs have a first problem.
* `Form.exists_finding_of_firstProblem`: the text of this problem ends that of a finding.
* `Form.check_foresees_run`: the check of a form tells how every run ends.
-/

namespace Intake

open Rule Message Cleaning Pipeline

namespace Form

theorem occurs_in_intercalate (separator : String) {texts : List String} {text : String}
    (h : text ∈ texts) :
    ∃ before after, String.intercalate separator texts = before ++ text ++ after := by
  induction texts with
  | nil => exact absurd h List.not_mem_nil
  | cons head rest ih =>
    rcases List.mem_cons.1 h with rfl | h
    · cases rest with
      | nil => exact ⟨"", "", by rw [String.intercalate_singleton]; simp⟩
      | cons next rest =>
        refine ⟨"", separator ++ String.intercalate separator (next :: rest), ?_⟩
        rw [String.intercalate_cons_cons, String.empty_append, String.append_assoc]
    · obtain ⟨before, after, hrest⟩ := ih h
      refine ⟨head ++ separator ++ before, after, ?_⟩
      rw [String.intercalate_cons_of_ne_nil (List.ne_nil_of_mem h), hrest]
      simp only [String.append_assoc]

/-! ### Findings -/

theorem tagFindings_eq_nil_iff (f : Form) :
    f.tagFindings = [] ↔ ∃ tags, Policy.resolve (tagsOf f.fields) = .ok tags := by
  unfold tagFindings
  rw [List.filterMap_eq_nil_iff, Policy.exists_resolve_eq_ok_iff]
  refine forall₂_congr fun e _ => ?_
  rw [Option.map_eq_none_iff, problem?_eq_none_iff]

section

variable [PhoneDirectory]

theorem chainFindings_eq_nil_iff (f : Form) :
    f.chainFindings = [] ↔ ∃ chains, f.examiner.compile (chainsOf f.fields) = .ok chains := by
  unfold chainFindings
  rw [List.filterMap_eq_nil_iff, Examiner.exists_compile_eq_ok_iff]
  refine forall₂_congr fun e _ => ?_
  rw [Option.map_eq_none_iff, Examiner.problem?_compile_singleton, problem?_eq_none_iff]

/-- **A form has findings if and only if its runs have a first problem.** -/
theorem findings_ne_nil_iff (f : Form) :
    f.findings ≠ [] ↔ ∃ problem, FirstProblem f.examiner f.fields problem := by
  rw [exists_firstProblem_iff, not_iff_not]
  unfold findings
  rw [List.append_eq_nil_iff, tagFindings_eq_nil_iff, chainFindings_eq_nil_iff]
  constructor
  · rintro ⟨⟨tags, htags⟩, ⟨chains, hchains⟩⟩
    exact ⟨chains, tags, hchains, htags⟩
  · rintro ⟨chains, tags, hchains, htags⟩
    exact ⟨⟨tags, htags⟩, ⟨chains, hchains⟩⟩

/-- **The text of the first problem ends the text of a finding.** -/
theorem exists_finding_of_firstProblem {f : Form} {problem : Problem}
    (h : FirstProblem f.examiner f.fields problem) :
    ∃ finding ∈ f.findings, ∃ before, finding.message = before ++ problem.message := by
  cases h with
  | chain first =>
    obtain ⟨e, he, hfail⟩ := first.exists_mem
    refine ⟨.chain problem, List.mem_append_right _ ?_, "", ?_⟩
    · refine List.mem_filterMap.2 ⟨e, he, ?_⟩
      rw [Examiner.problem?_compile_singleton, hfail]
      rfl
    · rw [String.empty_append]
      rfl
  | tag compiled first =>
    obtain ⟨e, he, hfail⟩ := first.exists_mem
    refine ⟨.tag e.1 _, List.mem_append_left _ ?_, "Field '" ++ e.1 ++ "': ", rfl⟩
    refine List.mem_filterMap.2 ⟨e, he, ?_⟩
    rw [hfail]
    rfl

theorem check_eq_ok_iff (f : Form) : f.check = .ok () ↔ f.findings = [] := by
  unfold check
  split
  · rename_i h
    exact ⟨fun _ => h, fun _ => rfl⟩
  · rename_i h
    constructor
    · intro hcheck
      cases hcheck
    · intro hfindings
      exact absurd hfindings h

theorem check_eq_error_iff (f : Form) (findings : List Finding) :
    f.check = .error findings ↔ f.findings = findings ∧ findings ≠ [] := by
  unfold check
  split
  · rename_i h
    constructor
    · intro hcheck
      cases hcheck
    · rintro ⟨rfl, hne⟩
      exact absurd h hne
  · rename_i h
    constructor
    · intro hcheck
      obtain rfl := Except.error.inj hcheck
      exact ⟨rfl, h⟩
    · rintro ⟨rfl, -⟩
      rfl

theorem occurs_in_invalidMessage {f : Form} {problem : Problem}
    (h : FirstProblem f.examiner f.fields problem) :
    ∃ before after, invalidMessage f.findings = before ++ problem.message ++ after := by
  obtain ⟨finding, hmem, lead, hlead⟩ := exists_finding_of_firstProblem h
  obtain ⟨before, after, hjoined⟩ :=
    occurs_in_intercalate "\n" (List.mem_map_of_mem (f := Finding.message) hmem)
  refine ⟨"Invalid rule set: Rule set validation failed:\n" ++ before ++ lead, after, ?_⟩
  unfold invalidMessage
  rw [hjoined, hlead]
  simp only [String.append_assoc]

theorem run_eq_error_iff (f : Form) (today : Date) (r : Record) (problem : Problem) :
    f.run today r = .error problem ↔ FirstProblem f.examiner f.fields problem :=
  Pipeline.run_eq_error_iff f.pipeline today r f.fields f.wording problem

/-! ### Forms that pass the check -/

/-- A form that passes the check runs the chains that it has. -/
theorem exists_run_of_check {f : Form} (h : f.check = .ok ()) :
    ∃ chains, f.chains = .ok chains ∧ f.examiner.compile (chainsOf f.fields) = .ok chains ∧
      ∀ today r, ∃ cleaned, f.policy.clean (tagsOf f.fields) r = .ok cleaned ∧
        f.run today r = .ok ⟨cleaned, f.examiner.examine today cleaned chains f.wording⟩ := by
  have hnone : ¬ ∃ problem, FirstProblem f.examiner f.fields problem := by
    rw [← findings_ne_nil_iff, Ne, not_not]
    exact (check_eq_ok_iff f).1 h
  rw [exists_firstProblem_iff, not_not] at hnone
  obtain ⟨chains, tags, hchains, htags⟩ := hnone
  refine ⟨chains, ?_, hchains, ?_⟩
  · have hcompiled := (mapM_eq_ok_iff _ _ _).1 hchains
    refine (mapM_eq_ok_iff _ _ _).2 (hcompiled.imp ?_)
    intro e chain he
    exact Examiner.read_of_compileField he
  · intro today r
    refine ⟨f.policy.cleanWith tags r, ?_, ?_⟩
    · show (Policy.resolve (tagsOf f.fields)).map _ = _
      rw [htags]
      rfl
    · exact (run_eq_ok_iff f.pipeline _ _ _ _ _).2 ⟨chains, tags, hchains, htags, rfl⟩

/-- Loading reads a form and keeps it if it passes the check. -/
theorem load_eq_ok_iff (source : Source) (f : Form) :
    load source = .ok f ↔ source.read = .ok f ∧ f.check = .ok () := by
  unfold load
  cases hread : source.read with
  | error e => simp [bind, Except.bind]
  | ok form =>
    cases hcheck : form.check with
    | error findings =>
      constructor
      · intro h
        simp [hcheck, bind, Except.bind] at h
      · rintro ⟨hform, h⟩
        rw [← Except.ok.inj hform, hcheck] at h
        cases h
    | ok _ =>
      constructor
      · intro h
        have hform : form = f := by simpa [hcheck, bind, Except.bind] using h
        subst hform
        exact ⟨rfl, hcheck⟩
      · rintro ⟨hform, -⟩
        simpa [hcheck, bind, Except.bind] using hform

/-- **The check foresees every run.**  A form passes it if and only if every record can be
run, and also if and only if some record can.  If it fails, every run stops at the first
problem of the form, whose text occurs in the text of the check.  A form that has been loaded
can be run on every record, by the chains that it has.  It does not matter which telephone
numbers there are. -/
theorem check_foresees_run (f : Form) :
    (f.check = .ok () ↔ ∀ today r, ∃ outcome, f.run today r = .ok outcome) ∧
    (f.check = .ok () ↔ ∃ today r outcome, f.run today r = .ok outcome) ∧
    (∀ findings, f.check = .error findings →
      ∃ problem, FirstProblem f.examiner f.fields problem ∧
      (∀ today r, f.run today r = .error problem) ∧
      ∃ before after, invalidMessage findings = before ++ problem.message ++ after) ∧
    (∀ source, load source = .ok f → ∃ chains, f.chains = .ok chains ∧
      f.examiner.compile (chainsOf f.fields) = .ok chains ∧
      ∀ today r, ∃ cleaned, f.policy.clean (tagsOf f.fields) r = .ok cleaned ∧
        f.run today r = .ok ⟨cleaned, f.examiner.examine today cleaned chains f.wording⟩ ∧
        f.apply today r = .ok (f.examiner.examine today cleaned chains f.wording)) := by
  have hruns : f.check = .ok () → ∀ today r, ∃ outcome, f.run today r = .ok outcome := by
    intro h today r
    obtain ⟨chains, -, -, hrun⟩ := exists_run_of_check h
    obtain ⟨cleaned, -, ho⟩ := hrun today r
    exact ⟨_, ho⟩
  have hcheck : (∃ today r outcome, f.run today r = .ok outcome) → f.check = .ok () := by
    rintro ⟨today, r, outcome, ho⟩
    rw [check_eq_ok_iff]
    by_contra hne
    obtain ⟨problem, hfirst⟩ := (findings_ne_nil_iff f).1 hne
    rw [(run_eq_error_iff f today r problem).2 hfirst] at ho
    cases ho
  let someday : Date := ⟨2000, 1, 1, by decide⟩
  refine ⟨⟨hruns, fun h => hcheck ?_⟩, ⟨fun h => ?_, hcheck⟩, ?_, ?_⟩
  · exact ⟨someday, ∅, h someday ∅⟩
  · exact ⟨someday, ∅, hruns h someday ∅⟩
  · intro findings h
    obtain ⟨rfl, hne⟩ := (check_eq_error_iff f findings).1 h
    obtain ⟨problem, hfirst⟩ := (findings_ne_nil_iff f).1 hne
    refine ⟨problem, hfirst, ?_, occurs_in_invalidMessage hfirst⟩
    intro today r
    exact (run_eq_error_iff f today r problem).2 hfirst
  · intro source h
    obtain ⟨-, hpassed⟩ := (load_eq_ok_iff source f).1 h
    obtain ⟨chains, hchains, hcompile, hrun⟩ := exists_run_of_check hpassed
    refine ⟨chains, hchains, hcompile, ?_⟩
    intro today r
    obtain ⟨cleaned, hclean, ho⟩ := hrun today r
    refine ⟨cleaned, hclean, ho, ?_⟩
    unfold apply
    rw [ho]
    rfl

end

/-- A form with unknown tags, a token without a name and a rule without its parameter. -/
def mistaken : Form where
  fields := Dict.ofList
    [("age", "number|required|:3"), ("name", "text|min"), ("mail", "email|email")]
  strict := true

def mistakes : List Finding :=
  [.tag "age" (.unknownTag "number"), .tag "name" (.unknownTag "text"),
    .chain (.namelessRule "age" ":3"), .chain (.missingParams "name" "min" 1 0)]

def signup : Form where
  fields := Dict.ofList [("name", "string|required|min:3"), ("phone", "string|iso:US")]
  strict := true

open TwoCountries in
/-- The mistaken form stops every record, and the other one, loaded from JSON, none. -/
theorem check_foresees_run_of_mistaken_and_signup :
    (mistaken.check = .error mistakes ∧
      ∃ problem, FirstProblem mistaken.examiner mistaken.fields problem ∧
      (∀ today r, mistaken.run today r = .error problem) ∧
      ∃ before after, invalidMessage mistakes = before ++ problem.message ++ after) ∧
    ∃ source, load source = .ok signup ∧ ∃ chains, signup.chains = .ok chains ∧
      signup.examiner.compile (chainsOf signup.fields) = .ok chains ∧
      ∀ today r, ∃ cleaned, signup.policy.clean (tagsOf signup.fields) r = .ok cleaned ∧
        signup.run today r =
          .ok ⟨cleaned, signup.examiner.examine today cleaned chains signup.wording⟩ ∧
        signup.apply today r =
          .ok (signup.examiner.examine today cleaned chains signup.wording) := by
  have hmistaken : mistaken.check = .error mistakes :=
    (check_eq_error_iff _ _).2 ⟨by decide +kernel, by decide⟩
  let text := "\x7b\"fields\":\x7b\"name\":\"string|required|min:3\","
    ++ "\"phone\":\"string|iso:US\"\x7d,\"strict_rules\":true\x7d"
  have hread : ofJson? text = some signup := by decide +kernel
  have hload : load (.json text) = .ok signup := by
    refine (load_eq_ok_iff _ _).2 ⟨?_, (check_eq_ok_iff _).2 (by decide +kernel)⟩
    show Option.elim (ofJson? text) _ Except.ok = _
    rw [hread]
    rfl
  exact ⟨⟨hmistaken, (check_foresees_run mistaken).2.2.1 mistakes hmistaken⟩,
    .json text, hload, (check_foresees_run signup).2.2.2 (.json text) hload⟩

end Form

end Intake
