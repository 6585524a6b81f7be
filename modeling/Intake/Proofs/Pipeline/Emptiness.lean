import Intake.Proofs.Cleaning.Texts
import Intake.Proofs.Examiner.Decomposition
import Intake.Proofs.Pipeline.Running
import Intake.Proofs.Text.Outside

/-!
# Nothing is filled in by cleaning

The rule `required` looks at the cleaned value of a field.  A value that is empty before it is
cleaned is empty after that, too, although the two are tested in different ways: a text of
blanks counts as filled in for a field and as empty for an item of a list, and `false` becomes
an empty text.

* `KeepsEmpty`: changes of texts that leave empty texts empty and blank texts blank.
* `Rewords`: changes of scalars that write their texts anew by such a change.
* `Rewords.isGiven_of_map`: a value that is filled in after such a change was so before.
* `Pipeline.cleaning_fills_nothing_in`: a field that is required and was not filled in fails in
  every run.
-/

namespace Intake

open Rule Message Cleaning

/-! ### Texts -/

/-- A change of texts that leaves empty texts empty and blank texts blank. -/
structure KeepsEmpty (f : String → String) : Prop where
  empty : f "" = ""
  blank : ∀ s, Text.trimBlank s = "" → Text.trimBlank (f s) = ""

theorem KeepsEmpty.comp {f g : String → String} (hg : KeepsEmpty g) (hf : KeepsEmpty f) :
    KeepsEmpty fun s => g (f s) where
  empty := by rw [hf.empty, hg.empty]
  blank s h := hg.blank _ (hf.blank s h)

/-- A blank text has no character of an alphabet. -/
theorem Text.Alphabet.keep_of_blank (a : Alphabet) {s : String} (h : trimBlank s = "") :
    a.keep s = "" := by
  rw [← String.toList_eq_nil_iff, toList_keep, List.filter_eq_nil_iff]
  intro c hc hallows
  have hblank := (trimBlank_eq_empty_iff s).1 h c hc
  rw [not_isBlank_of_allows hallows] at hblank
  cases hblank

/-- Nothing can be seen of a blank text. -/
theorem Text.Markup.visible_of_blank {s : String} (h : trimBlank s = "") :
    trimBlank (visible s) = "" := by
  have hshown : shown s = [] := by
    have hsublist := shown_sublist s
    rw [h] at hsublist
    exact List.sublist_nil.1 hsublist
  rw [← String.toList_eq_nil_iff, toList_trimBlank_visible, hshown]
  rfl

namespace Cleaning

theorem Tag.keepsEmpty_cleanText (tag : Tag) : KeepsEmpty tag.cleanText where
  empty := by cases tag <;> rfl
  blank s h := by
    cases halphabet : tag.alphabet? with
    | some alphabet =>
      rw [Tag.cleanText_of_alphabet halphabet, alphabet.keep_of_blank h]
      rfl
    | none =>
      rw [Tag.cleanText_of_markup halphabet]
      exact Text.Markup.visible_of_blank h

theorem Policy.keepsEmpty_finishText (p : Policy) : KeepsEmpty p.finishText := by
  cases htrims : p.trims with
  | true =>
    have hfinish : p.finishText = Text.trimBlank := by
      funext s
      simp [finishText, htrims]
    rw [hfinish]
    exact ⟨rfl, fun s h => by rw [Text.trimBlank_trimBlank, h]⟩
  | false =>
    have hfinish : p.finishText = id := by
      funext s
      simp [finishText, htrims]
    rw [hfinish]
    exact ⟨rfl, fun s h => h⟩

end Cleaning

/-! ### Scalars -/

/-- A change of scalars that leaves a scalar as it is or writes its text anew. -/
def Rewords (f : String → String) (g : Scalar → Scalar) : Prop :=
  ∀ a, g a = a ∨ ∃ s, a.text? = some s ∧ g a = .text (f s)

theorem Cleaning.Policy.rewords_finishScalar (p : Policy) :
    Rewords p.finishText p.finishScalar := by
  intro a
  cases a with
  | text s => exact Or.inr ⟨s, rfl, rfl⟩
  | _ => exact Or.inl rfl

theorem Cleaning.Policy.rewords_scrub (p : Policy) (tag : Tag) :
    Rewords (fun s => p.finishText (tag.cleanText s)) (p.scrub tag) := by
  intro a
  cases a with
  | null => exact Or.inl rfl
  | _ => exact Or.inr ⟨_, rfl, rfl⟩

namespace Rule.Checks

/-- A scalar with a text that is not empty is filled in. -/
theorem isGiven_of_text? {a : Scalar} {s : String} (h : a.text? = some s) (hne : s ≠ "") :
    isGiven (.scalar a) = true := by
  cases a with
  | null => cases h
  | bool b =>
    cases b with
    | true => rfl
    | false => exact absurd (Option.some.inj h).symm hne
  | int n => rfl
  | float x => rfl
  | text t =>
    obtain rfl : t = s := Option.some.inj h
    simpa [isGiven] using hne

theorem isFilled_of_text? {a : Scalar} {s : String} (h : a.text? = some s) :
    isFilled (.scalar a) = (Text.trimBlank s != "") := by
  rw [isFilled, h]

/-- Whether a field is filled in is decided by its value, null or not. -/
theorem required_eq_any (r : Record) (field : String) (today : Date) (params : List Param) :
    required ⟨r, field, today⟩ params = (r.get? field).any isGiven := by
  show (((r.get? field).filter fun v => !v.isNull).map isGiven).getD false = _
  cases r.get? field with
  | none => rfl
  | some v =>
    by_cases hnull : v.isNull = true
    · obtain rfl := v.isNull_iff.1 hnull
      rfl
    · rw [Option.filter_some_pos (by simpa using hnull)]
      rfl

end Rule.Checks

/-! ### Values -/

namespace Rewords

open Rule.Checks

variable {f : String → String} {g : Scalar → Scalar}

/-- An item of a list that is filled in after the change was so before. -/
theorem isFilled_of_map (hg : Rewords f g) (hf : KeepsEmpty f) {v : Value}
    (h : isFilled (v.map g) = true) : isFilled v = true := by
  cases v with
  | scalar a =>
    rw [Value.map_scalar] at h
    rcases hg a with hsame | ⟨s, hs, htext⟩
    · rwa [hsame] at h
    · rw [htext, isFilled_of_text? rfl] at h
      rw [isFilled_of_text? hs]
      -- otherwise the text has been blank and is blank now
      by_contra hblank
      have hnow := hf.blank s (by simpa using hblank)
      simp [hnow] at h
  | list items =>
    rw [Value.map_list] at h
    simpa [isFilled] using h

/-- **A value that is filled in after the change was so before.** -/
theorem isGiven_of_map (hg : Rewords f g) (hf : KeepsEmpty f) {v : Value}
    (h : isGiven (v.map g) = true) : isGiven v = true := by
  cases v with
  | scalar a =>
    rw [Value.map_scalar] at h
    rcases hg a with hsame | ⟨s, hs, htext⟩
    · rwa [hsame] at h
    · refine isGiven_of_text? hs fun hempty => ?_
      rw [htext, hempty, hf.empty] at h
      cases h
  | list items =>
    rw [Value.map_list] at h
    have hitems : (items.map (Value.map g)).isEmpty = false ∧
        ∀ v ∈ items, isFilled (v.map g) = true := by
      simpa [isGiven] using h
    have hfilled : ∀ v ∈ items, isFilled v = true :=
      fun v hv => hg.isFilled_of_map hf (hitems.2 v hv)
    simpa [isGiven] using And.intro hitems.1 hfilled

end Rewords

/-! ### The three ways of cleaning -/

namespace Cleaning.Policy

open Rule.Checks

variable {p : Policy} {tag : Tag} {v : Value}

theorem isGiven_of_finish (h : isGiven (p.finish v) = true) : isGiven v = true := by
  rw [finish_eq_map] at h
  exact p.rewords_finishScalar.isGiven_of_map p.keepsEmpty_finishText h

theorem isGiven_of_cleanse (h : isGiven (p.finish (tag.cleanse v)) = true) :
    isGiven v = true := by
  rw [finish_cleanse] at h
  exact (p.rewords_scrub tag).isGiven_of_map
    (p.keepsEmpty_finishText.comp tag.keepsEmpty_cleanText) h

theorem isGiven_of_fit (h : isGiven (p.finish ((tag.fit? v).getD .null)) = true) :
    isGiven v = true := by
  rw [finish_fit?] at h
  split at h
  · cases h
  · rw [← finish_cleanse] at h
    exact isGiven_of_cleanse h

/-- **A field that is filled in after it has been cleaned was so before.** -/
theorem isGiven_of_cleanTo {tags : Dict Tag} {field : String}
    (h : isGiven (p.cleanTo tags field v) = true) : isGiven v = true := by
  unfold cleanTo cleanField at h
  split at h
  · exact isGiven_of_cleanse h
  · cases htag : tags.get? field with
    | none =>
      rw [htag] at h
      exact isGiven_of_finish h
    | some tag =>
      rw [htag] at h
      exact isGiven_of_fit h

theorem required_cleanWith_eq_false {r : Record} {field : String} {today : Date}
    {params : List Param} (h : required ⟨r, field, today⟩ params = false) (tags : Dict Tag) :
    required ⟨p.cleanWith tags r, field, today⟩ params = false := by
  rw [required_eq_any] at h ⊢
  rw [get?_cleanWith, Option.any_map]
  cases hget : r.get? field with
  | none => rfl
  | some v =>
    rw [hget, Option.any_some] at h
    rw [Option.any_some, ← Bool.not_eq_true]
    intro hgiven
    rw [isGiven_of_cleanTo hgiven] at h
    cases h

end Cleaning.Policy

/-! ### Runs -/

/-- The chain of a field uses a rule in this way. -/
def HasCall (fields : Dict String) (field : String) (call : Call) : Prop :=
  ∃ rules text chain, fields.get? field = some rules ∧ chainPart? rules = some text ∧
    Chain.read field text = .ok chain ∧ call ∈ chain.calls

theorem Examiner.rejects_required [PhoneDirectory] (strict : Bool) (s : Subject) {call : Call}
    (hname : call.name = "required") :
    Examiner.rejects ⟨.standard, strict⟩ s call = !Checks.required s call.params := by
  have hrule : Registry.standard.get? call.name =
      some ⟨Checks.required, "Please enter the %s", 0⟩ := by
    rw [hname, Registry.get?_standard]
    rfl
  unfold Examiner.rejects
  rw [hrule]

namespace Pipeline

/-- **Nothing is filled in by cleaning.**  A value that is filled in after it has been cleaned,
by a tag of its own, by the tag for all fields or by trimming alone, was filled in before.  So a
field that is required, but was not filled in, fails in every run that succeeds. -/
theorem cleaning_fills_nothing_in [PhoneDirectory] (policy : Policy) :
    (∀ (tag : Tag) (v : Value),
      (Checks.isGiven (policy.finish ((tag.fit? v).getD .null)) = true →
        Checks.isGiven v = true) ∧
      (Checks.isGiven (policy.finish (tag.cleanse v)) = true → Checks.isGiven v = true) ∧
      (Checks.isGiven (policy.finish v) = true → Checks.isGiven v = true)) ∧
    ∀ (strict : Bool) (today : Date) (r : Record) (fields : Dict String) (w : Wording)
      (o : Outcome), run ⟨policy, ⟨.standard, strict⟩⟩ today r fields w = .ok o →
      ∀ field call, HasCall fields field call → call.name = "required" →
        Checks.required ⟨r, field, today⟩ call.params = false →
        o.failures.contains field = true := by
  constructor
  · intro tag v
    exact ⟨Policy.isGiven_of_fit, Policy.isGiven_of_cleanse, Policy.isGiven_of_finish⟩
  · intro strict today r fields w o hrun field call hcall hname hempty
    obtain ⟨chains, tags, hchains, -, rfl⟩ := (run_eq_ok_iff _ _ _ _ _ _).1 hrun
    obtain ⟨rules, text, chain, hrules, hpart, hread, hmem⟩ := hcall
    have htext : (chainsOf fields).get? field = some text := by
      rw [get?_chainsOf, hrules]
      exact hpart
    refine (Examiner.contains_examine_iff hchains htext hread _ _ w).2 ⟨call, hmem, ?_⟩
    rw [Examiner.rejects_required strict _ hname, Policy.required_cleanWith_eq_false hempty tags]
    rfl

open TwoCountries in
/-- A list of two tags, of which the second is blank, fails, and three values are filled in after
they have been cleaned in the three ways. -/
theorem cleaning_fills_nothing_in_tags :
    let policy : Policy := {}
    let tagged : Value := .list [.text " <b>a</b> ", .list [.null]]
    let fields : Dict String := Dict.ofList [("tags", "string[]|required")]
    let r : Record := Dict.ofList [("tags", .list [.text "<b>a</b>", .text " \t"])]
    let today : Date := ⟨2024, 6, 15, by decide⟩
    (Checks.isGiven (policy.finish ((Tag.texts.fit? tagged).getD .null)) = true ∧
      Checks.isGiven tagged = true) ∧
    (Checks.isGiven (policy.finish (Tag.int.cleanse (.scalar (.bool true)))) = true ∧
      Checks.isGiven (.scalar (.bool true)) = true) ∧
    (Checks.isGiven (policy.finish (.text " a ")) = true ∧ Checks.isGiven (.text " a ") = true) ∧
    ∃ o, run ⟨policy, ⟨.standard, true⟩⟩ today r fields .empty = .ok o ∧
      HasCall fields "tags" ⟨"required", []⟩ ∧
      Checks.required ⟨r, "tags", today⟩ [] = false ∧ o.failures.contains "tags" = true := by
  intro policy tagged fields r today
  obtain ⟨hvalues, hruns⟩ := cleaning_fills_nothing_in policy
  have htagged : Checks.isGiven (policy.finish ((Tag.texts.fit? tagged).getD .null)) = true := rfl
  have htrue : Checks.isGiven (policy.finish (Tag.int.cleanse (.scalar (.bool true)))) = true := rfl
  have htext : Checks.isGiven (policy.finish (.text " a ")) = true := rfl
  obtain ⟨o, hrun⟩ := exists_eq_ok_of_isOk
    (show (run ⟨policy, ⟨.standard, true⟩⟩ today r fields .empty).isOk = true by rfl)
  have hcall : HasCall fields "tags" ⟨"required", []⟩ :=
    ⟨_, _, ⟨"tags", [⟨"required", []⟩]⟩, rfl, rfl, rfl, List.mem_singleton_self _⟩
  have hempty : Checks.required ⟨r, "tags", today⟩ [] = false := rfl
  refine ⟨⟨htagged, (hvalues .texts tagged).1 htagged⟩, ⟨htrue, (hvalues .int _).2.1 htrue⟩,
    ⟨htext, (hvalues .text _).2.2 htext⟩, o, hrun, hcall, hempty, ?_⟩
  exact hruns true today r fields .empty o hrun "tags" _ hcall rfl hempty

end Pipeline

end Intake
