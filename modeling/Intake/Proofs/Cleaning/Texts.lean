import Intake.Proofs.Cleaning.Contents

/-!
# What tags make of a text

A text fits the tags that want no list.  Under a tag with an alphabet it is reduced to the
alphabet, and as no alphabet holds a blank, trimming has nothing to take from it then.

* `Policy.map_finish_fit?_text`: a text is cleaned and then trimmed, if the policy says so.
* `Text.Alphabet.not_isBlank_of_allows`: an alphabet allows no blank.
* `Policy.finishText_cleanText`: what a tag with an alphabet makes of a text.
-/

namespace Intake

namespace Text.Alphabet

theorem not_isBlank_of_allows {a : Alphabet} {c : Char} (h : a.allows c = true) :
    isBlank c = false := by
  have hall : blanks.all (fun b => !a.allows b) = true := by
    cases a <;> decide
  by_contra hblank
  have hc : c ∈ blanks := by simpa [isBlank] using hblank
  have hnot := List.all_eq_true.1 hall c hc
  rw [h] at hnot
  cases hnot

theorem toList_keep (a : Alphabet) (s : String) : (a.keep s).toList = s.toList.filter a.allows := by
  rw [keep, String.toList_ofList]

theorem trimBlank_keep (a : Alphabet) (s : String) : trimBlank (a.keep s) = a.keep s := by
  have hallowed : ∀ c ∈ (a.keep s).toList, isBlank c = false := by
    intro c hc
    rw [toList_keep] at hc
    exact not_isBlank_of_allows (List.mem_filter.1 hc).2
  rw [trimBlank, strip_eq_self_of_forall hallowed, String.ofList_toList]

end Text.Alphabet

namespace Cleaning

/-- A text fits the tags that want no list. -/
theorem Tag.fit?_text {tag : Tag} (h : tag.wantsList = false) (s : String) :
    tag.fit? (.text s) = some (.text (tag.cleanText s)) := by
  unfold Tag.fit?
  rw [h]
  rfl

/-- **A text is cleaned and finished.** -/
theorem Policy.map_finish_fit?_text (p : Policy) {tag : Tag} (hlist : tag.wantsList = false)
    (s : String) :
    (tag.fit? (.text s)).map p.finish = some (.text (p.finishText (tag.cleanText s))) := by
  rw [Tag.fit?_text hlist, Option.map_some, Policy.finish_eq_map]
  rfl

/-- **Under a tag with an alphabet a text is reduced to the alphabet, and nothing else
happens to it.** -/
theorem Policy.finishText_cleanText (p : Policy) {tag : Tag} {alphabet : Text.Alphabet}
    (halphabet : tag.alphabet? = some alphabet) (s : String) :
    p.finishText (tag.cleanText s) = alphabet.keep s := by
  rw [Tag.cleanText_of_alphabet halphabet]
  simp [Policy.finishText, Text.Alphabet.trimBlank_keep]

end Cleaning

end Intake
