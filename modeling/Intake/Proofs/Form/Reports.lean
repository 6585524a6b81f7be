import Intake.Proofs.Examiner.Refusals
import Intake.Proofs.Form.Findings

/-!
# What the check of a form reports

The check goes through all fields, whatever it has found before: first through their tags and
then through their chains, in the order of the fields each time.  So its text has a line for each
unknown tag and a line for each chain that does not compile.

* `Form.unknownTags` and `Form.chainProblems` are the fields with something wrong, in their
  order, each with what is wrong with it.
* `Form.reportLines` are the lines for them; `Form.map_message_findings`: the findings are worded
  by these lines.
* `Form.check_reports_every_problem`: the text of the check, field by field.
-/

namespace Intake

open Rule Message Cleaning

/-- The problem with the tag in a rule string is that it is unknown. -/
theorem problem?_read_tagPart (rules : String) :
    problem? (Tag.read (tagPart rules)) =
      (Option.guard (!Tag.isKnown ·) (tagPart rules)).map .unknownTag := by
  by_cases hknown : Tag.isKnown (tagPart rules) = true
  · obtain ⟨tag, htag⟩ := (isKnown_tagPart_iff rules).1 hknown
    rw [htag, Option.guard, hknown]
    rfl
  · have hunknown : (!Tag.isKnown (tagPart rules)) = true := by simpa using hknown
    obtain ⟨problem, hproblem⟩ := (not_isKnown_tagPart_iff rules).1 hunknown
    obtain rfl := Tag.read_eq_error hproblem
    rw [hproblem, trim_tagPart, Option.guard, if_pos hunknown]
    rfl

namespace Form

/-! ### Fields with something wrong -/

/-- The fields whose tag is unknown, each with this tag. -/
def unknownTags (f : Form) : Dict String :=
  (tagsOf f.fields).filterMap fun _ tag => Option.guard (!Tag.isKnown ·) tag

/-- The fields whose chain does not compile, each with the problem that this chain has alone. -/
def chainProblems [PhoneDirectory] (f : Form) : Dict Problem :=
  (chainsOf f.fields).filterMap fun field chain =>
    problem? (f.examiner.compile (Dict.ofList [(field, chain)]))

theorem get?_unknownTags (f : Form) (field tag : String) :
    f.unknownTags.get? field = some tag ↔
      ∃ rules, f.fields.get? field = some rules ∧ tagPart rules = tag ∧
        Tag.isKnown tag = false := by
  rw [unknownTags, Dict.get?_filterMap, get?_tagsOf, Option.bind_map, Option.bind_eq_some_iff]
  refine exists_congr fun rules => and_congr_right fun _ => ?_
  rw [Function.comp_apply, Option.guard_eq_some_iff, Bool.not_eq_true']
  refine and_congr_right fun hsame => ?_
  rw [hsame]

theorem get?_chainProblems [PhoneDirectory] (f : Form) (field : String) (problem : Problem) :
    f.chainProblems.get? field = some problem ↔
      ∃ rules chain, f.fields.get? field = some rules ∧ chainPart? rules = some chain ∧
        f.examiner.compile (Dict.ofList [(field, chain)]) = .error problem := by
  rw [chainProblems, Dict.get?_filterMap, get?_chainsOf, Option.bind_assoc,
    Option.bind_eq_some_iff]
  simp only [Option.bind_eq_some_iff, problem?_eq_some_iff, exists_and_left]

/-- The findings about tags are those of the fields whose tag is unknown. -/
theorem tagFindings_eq (f : Form) :
    f.tagFindings = f.unknownTags.entries.map fun e => .tag e.1 (.unknownTag e.2) := by
  show (f.fields.entries.map fun e => (e.1, tagPart e.2)).filterMap _ =
    ((f.fields.entries.map fun e => (e.1, tagPart e.2)).filterMap _).map _
  rw [List.map_filterMap, List.filterMap_map, List.filterMap_map]
  refine List.filterMap_congr fun e _ => ?_
  simp only [Function.comp_apply, problem?_read_tagPart, Option.map_map]
  rfl

/-- The findings about chains are those of the fields whose chain does not compile. -/
theorem chainFindings_eq [PhoneDirectory] (f : Form) :
    f.chainFindings = f.chainProblems.entries.map fun e => .chain e.2 := by
  show _ = ((chainsOf f.fields).entries.filterMap _).map _
  rw [List.map_filterMap]
  simp only [Option.map_map]
  rfl

/-! ### The text of the check -/

/-- The lines of the check: one for each unknown tag, and then one for each chain that does not
compile. -/
def reportLines [PhoneDirectory] (f : Form) : List String :=
  (f.unknownTags.entries.map fun e =>
    "Field '" ++ e.1 ++ "': " ++ (Problem.unknownTag e.2).message) ++
  f.chainProblems.entries.map fun e => e.2.message

theorem map_message_findings [PhoneDirectory] (f : Form) :
    f.findings.map Finding.message = f.reportLines := by
  rw [findings, tagFindings_eq, chainFindings_eq, List.map_append, List.map_map, List.map_map]
  rfl

/-- A form has no findings if and only if the tags of all fields are known and their chains
compile alone. -/
theorem findings_eq_nil_iff_fields [PhoneDirectory] (f : Form) :
    f.findings = [] ↔ ∀ field rules, f.fields.get? field = some rules →
      Tag.isKnown (tagPart rules) = true ∧ ∀ chain, chainPart? rules = some chain →
        ∃ compiled, f.examiner.compile (Dict.ofList [(field, chain)]) = .ok compiled := by
  have hnone : f.findings = [] ↔ (∀ field, f.unknownTags.get? field = none) ∧
      ∀ field, f.chainProblems.get? field = none := by
    rw [findings, tagFindings_eq, chainFindings_eq, List.append_eq_nil_iff, List.map_eq_nil_iff,
      List.map_eq_nil_iff, ← Dict.isEmpty_iff, ← Dict.isEmpty_iff, Dict.isEmpty, Dict.isEmpty,
      List.isEmpty_iff, List.isEmpty_iff]
  rw [hnone]
  simp only [Option.eq_none_iff_forall_ne_some, ne_eq, get?_unknownTags, get?_chainProblems]
  constructor
  · intro h field rules hrules
    obtain ⟨htags, hchains⟩ := h
    refine ⟨?_, fun chain hchain => ?_⟩
    · by_contra hunknown
      exact htags field _ ⟨rules, hrules, rfl, by simpa using hunknown⟩
    · cases hcompile : f.examiner.compile (Dict.ofList [(field, chain)]) with
      | ok compiled => exact ⟨compiled, rfl⟩
      | error problem =>
        exact absurd ⟨rules, chain, hrules, hchain, hcompile⟩ (hchains field problem)
  · intro h
    refine ⟨fun field tag hfound => ?_, fun field problem hfound => ?_⟩
    · obtain ⟨rules, hrules, rfl, hunknown⟩ := hfound
      rw [(h field rules hrules).1] at hunknown
      cases hunknown
    · obtain ⟨rules, chain, hrules, hchain, hcompile⟩ := hfound
      obtain ⟨compiled, hok⟩ := (h field rules hrules).2 chain hchain
      rw [hok] at hcompile
      cases hcompile

/-- How rules are worded does not matter to the findings. -/
theorem findings_wording [PhoneDirectory] (f : Form) (wording : Wording) :
    findings { f with wording := wording } = f.findings := rfl

/-- **The check reports every problem once.**  A field is among the unknown tags if and only if its
tag is unknown, and among the chains with problems if and only if it has a chain that does not
compile, with the problem that compiling this chain alone stops at: that of its first nameless
token, or in a strict form of its first token that misuses a rule.  Both are in the order of the
fields, and no field is twice in either.  The form passes the check if and only if there is no such
field, and otherwise the text of the check is its header and the lines for these fields.  How rules
are worded does not matter. -/
theorem check_reports_every_problem [PhoneDirectory] (f : Form) :
    (∀ field tag, f.unknownTags.get? field = some tag ↔
      ∃ rules, f.fields.get? field = some rules ∧ tagPart rules = tag ∧
        Tag.isKnown tag = false) ∧
    (∀ field problem, f.chainProblems.get? field = some problem ↔
      ∃ rules chain, f.fields.get? field = some rules ∧ chainPart? rules = some chain ∧
        f.examiner.compile (Dict.ofList [(field, chain)]) = .error problem) ∧
    (∀ field chain problem, f.examiner.compile (Dict.ofList [(field, chain)]) = .error problem ↔
      f.examiner.ChainProblem field chain problem) ∧
    f.unknownTags.keys.Pairwise (· < ·) ∧ f.chainProblems.keys.Pairwise (· < ·) ∧
    (f.check = .ok () ↔ ∀ field rules, f.fields.get? field = some rules →
      Tag.isKnown (tagPart rules) = true ∧ ∀ chain, chainPart? rules = some chain →
        ∃ compiled, f.examiner.compile (Dict.ofList [(field, chain)]) = .ok compiled) ∧
    (∀ text, (∃ findings, f.check = .error findings ∧ invalidMessage findings = text) ↔
      ¬ f.check = .ok () ∧
        text = "Invalid rule set: Rule set validation failed:\n" ++
          String.intercalate "\n" f.reportLines) ∧
    ∀ wording, check { f with wording := wording } = f.check := by
  refine ⟨f.get?_unknownTags, f.get?_chainProblems, fun field chain problem => ?_,
    f.unknownTags.ordered_keys, f.chainProblems.ordered_keys, ?_, fun text => ?_,
    fun wording => ?_⟩
  · rw [Examiner.compile_singleton, map_eq_error_iff, Examiner.compileField_eq_error_iff_problem]
  · rw [check_eq_ok_iff, findings_eq_nil_iff_fields]
  · have htext : invalidMessage f.findings =
        "Invalid rule set: Rule set validation failed:\n" ++
          String.intercalate "\n" f.reportLines := by
      unfold invalidMessage
      rw [map_message_findings]
    simp only [check_eq_error_iff, check_eq_ok_iff]
    constructor
    · intro h
      obtain ⟨findings, ⟨rfl, hne⟩, rfl⟩ := h
      exact ⟨hne, htext⟩
    · intro h
      obtain ⟨hne, rfl⟩ := h
      exact ⟨f.findings, ⟨rfl, hne⟩, htext⟩
  · rw [check, findings_wording, check]

open TwoCountries in
/-- A field whose tag is unknown and whose chain does not compile has two lines, and a field without
a chain has none for it. -/
example :
    let f : Form :=
      ⟨Dict.ofList [("age", "number|min: ,"), ("mail", "email|nope|:3"), ("name", "string")],
        .empty, {}, true⟩
    f.unknownTags.entries = [("age", "number")] ∧
      f.chainProblems.entries = [("age", .missingParams "age" "min" 1 0),
        ("mail", .namelessRule "mail" ":3")] :=
  ⟨rfl, rfl⟩

end Form

end Intake
