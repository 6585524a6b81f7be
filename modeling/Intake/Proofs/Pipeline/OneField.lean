import Intake.Proofs.Cleaning.Texts
import Intake.Proofs.Examiner.Decomposition
import Intake.Proofs.Pipeline.Running
import Intake.Proofs.Rule.Texts
import Intake.Proofs.Rule.Tokens

/-!
# One field of a run

A rule string such as `email|email` combines a tag with one use of a rule.  A field with this
rule string is cleaned by the tag and examined by the rule, whatever the other fields are.

* `Combines`: the rule strings with one tag and one call.
* `Combines.exists_run`: such a rule string alone can be run on every record.
* `Combines.get?_record`, `Combines.get?_record_of_text` and `Combines.get?_failures_eq_none_iff`:
  what a run makes of the field.
-/

namespace Intake

open Rule Message Cleaning

/-- The rule string consists of a tag and one use of a rule. -/
structure Combines (rules : String) (tag : Tag) (call : Call) : Prop where
  tag : Tag.read (tagPart rules) = .ok tag
  chain : ∃ text, chainPart? rules = some text ∧
    ∀ field, Chain.read field text = .ok ⟨field, [call]⟩

namespace Combines

/-- A rule string with one token behind its tag. -/
theorem of_tokens {rules : String} {tag : Tag} {call : Call} (text token : String)
    (htag : Tag.read (tagPart rules) = .ok tag) (hpart : chainPart? rules = some text)
    (htokens : Chain.tokens text = [token]) (hname : Chain.isNameless token = false)
    (hcall : Call.ofToken token = call) : Combines rules tag call := by
  refine ⟨htag, text, hpart, fun field => (Chain.read_eq_ok_iff _ _ _).2 ?_⟩
  rw [htokens]
  exact ⟨by simpa using hname, by rw [List.map_singleton, hcall]⟩

variable {rules : String} {tag : Tag} {call : Call} {p : Pipeline} {rule : Definition}
  {fields : Dict String} {field : String}

/-- Such a rule string alone can be run on every record. -/
theorem exists_run (h : Combines rules tag call)
    (hrule : p.examiner.registry.get? call.name = some rule)
    (harity : rule.arity ≤ call.params.length) (field : String) (today : Date) (r : Record)
    (w : Wording) : ∃ o, p.run today r (Dict.ofList [(field, rules)]) w = .ok o := by
  obtain ⟨text, hpart, hread⟩ := h.chain
  have hchains : chainsOf (Dict.ofList [(field, rules)]) = Dict.ofList [(field, text)] := by
    apply Dict.ext_get?
    intro key
    rw [get?_chainsOf, Dict.get?_ofList_singleton, Dict.get?_ofList_singleton]
    by_cases hkey : key = field <;> simp [hkey, hpart]
  have hproblem : p.examiner.chainProblem? ⟨field, [call]⟩ = none := by
    unfold Examiner.chainProblem? Examiner.callProblem?
    split
    · simp [hrule, harity]
    · rfl
  obtain ⟨compiled, hcompiled⟩ := Examiner.exists_compile_singleton (hread field) hproblem
  obtain ⟨tags, htags⟩ := (Policy.exists_resolve_eq_ok_iff
    (tagsOf (Dict.ofList [(field, rules)]))).2 (by
      intro e he
      obtain rfl := List.mem_singleton.1 he
      exact ⟨tag, h.tag⟩)
  rw [← hchains] at hcompiled
  exact ⟨_, (Pipeline.run_eq_ok_iff p today r _ w _).2 ⟨compiled, tags, hcompiled, htags, rfl⟩⟩

variable {today : Date} {r : Record} {w : Wording} {o : Outcome}

/-- **A run cleans the field by the tag.** -/
theorem get?_record (h : Combines rules tag call) (hrun : p.run today r fields w = .ok o)
    (hrules : fields.get? field = some rules) :
    o.record.get? field =
      (r.get? field).map fun v => p.policy.finish ((tag.fit? v).getD .null) := by
  obtain ⟨chains, tags, -, htags, rfl⟩ := (Pipeline.run_eq_ok_iff _ _ _ _ _ _).1 hrun
  have hname : (tagsOf fields).get? field = some (tagPart rules) := by
    rw [get?_tagsOf, hrules]
    rfl
  have hget : tags.get? field = some tag :=
    (Policy.get?_of_resolve htags field tag).2 ⟨_, hname, h.tag⟩
  show (p.policy.cleanWith tags r).get? field = _
  rw [Policy.get?_cleanWith]
  congr 1
  funext v
  exact Policy.cleanTo_of_own hget v

/-- A run leaves the cleaned text in a field with a text. -/
theorem get?_record_of_text (h : Combines rules tag call) (hlist : tag.wantsList = false)
    (hrun : p.run today r fields w = .ok o) (hrules : fields.get? field = some rules) {t : String}
    (htext : r.get? field = some (.text t)) :
    o.record.get? field = some (.text (p.policy.finishText (tag.cleanText t))) := by
  have hfinish := p.policy.map_finish_fit?_text hlist t
  rw [Tag.fit?_text hlist, Option.map_some] at hfinish
  rw [h.get?_record hrun hrules, htext, Option.map_some, Tag.fit?_text hlist, Option.getD_some]
  exact hfinish

/-- **A run reports the field if and only if the rule rejects its cleaned value.** -/
theorem get?_failures_eq_none_iff (h : Combines rules tag call)
    (hrule : p.examiner.registry.get? call.name = some rule)
    (hrun : p.run today r fields w = .ok o) (hrules : fields.get? field = some rules) :
    o.failures.get? field = none ↔ rule.check ⟨o.record, field, today⟩ call.params = true := by
  obtain ⟨chains, tags, hchains, -, rfl⟩ := (Pipeline.run_eq_ok_iff _ _ _ _ _ _).1 hrun
  obtain ⟨text, hpart, hread⟩ := h.chain
  have htext : (chainsOf fields).get? field = some text := by
    rw [get?_chainsOf, hrules]
    exact hpart
  show (p.examiner.examine today _ chains w).get? field = none ↔ _
  rw [Examiner.get?_examine_of_call hchains htext (hread field) hrule]
  rw [ite_eq_left_iff]
  simp

end Combines

end Intake
