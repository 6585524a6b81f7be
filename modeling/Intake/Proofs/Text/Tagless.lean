import Mathlib.Tactic.TFAE
import Intake.Proofs.Text.Outside

/-!
# Text without tags

What the markup scan leaves is text in which it finds nothing to do, and it leaves every such text
as it is.  So a second scan changes nothing: where a tag has been taken out, the text in front of it
and the text behind it make up no new one.

* `Tagless`: text in which the scan finds nothing to do.
* `Finished.tagless` and `Tagless.finished`: this is what has been scanned up to a place where any
  text may follow.
* `outer_of_finished`: all of its characters are outside tags.
* `visible_fixed_points`: the results of the scan are its fixed points, and these are the texts
  without tags.
-/

namespace Intake.Text.Markup

/-- Text without NUL and quotes, in which white space stands right behind every `<`. -/
structure Tagless (cs : List Char) : Prop where
  no_nul : '\x00' ∉ cs
  no_single : '\'' ∉ cs
  no_double : '\"' ∉ cs
  spaced : ∀ front rest, cs = front ++ '<' :: rest → ∃ c, rest.head? = some c ∧ isWhite c = true

variable {cs : List Char}

theorem Finished.tagless (h : Finished cs) : Tagless cs where
  no_nul hmem := (h.plain _ hmem).1 rfl
  no_single hmem := (h.plain _ hmem).2.1 rfl
  no_double hmem := (h.plain _ hmem).2.2 rfl
  spaced front rest hsplit := by
    cases rest with
    | nil => exact absurd (by simp [hsplit]) h.closed
    | cons c rest =>
      have hspaced := List.isChain_iff_forall_rel_of_append_cons_cons.1 h.spaced hsplit
      exact ⟨c, rfl, hspaced rfl⟩

theorem Tagless.finished (h : Tagless cs) : Finished cs := by
  refine ⟨⟨?_, ?_⟩, ?_⟩
  · intro c hc
    refine ⟨?_, ?_, ?_⟩ <;> intro heq <;> subst heq
    · exact h.no_nul hc
    · exact h.no_single hc
    · exact h.no_double hc
  · apply List.isChain_iff_forall_rel_of_append_cons_cons.2
    intro c next front rest hsplit hopen
    subst hopen
    obtain ⟨d, hd, hwhite⟩ := h.spaced front (next :: rest) hsplit
    rwa [Option.some.inj hd]
  · intro hlast
    obtain ⟨front, hsplit⟩ := List.getLast?_eq_some_iff.1 hlast
    obtain ⟨c, hc, -⟩ := h.spaced front [] hsplit
    cases hc

/-- Plain characters are written as they are. -/
theorem flatMap_written_of_plain (h : ∀ c ∈ cs, IsPlain c) : cs.flatMap written = cs := by
  induction cs with
  | nil => rfl
  | cons c rest ih =>
    rw [List.flatMap_cons, written_of_plain (h c (by simp)), ih fun d hd => h d (by simp [hd])]
    rfl

/-- **All characters of finished text are outside tags.** -/
theorem outer_of_finished {s : String} (h : Finished s.toList) : outer s = s.toList := by
  have hplain : ∀ c ∈ outer s, IsPlain c := fun c hc => h.plain c ((outer_sublist s).subset hc)
  calc
    outer s = (outer s).flatMap written := (flatMap_written_of_plain hplain).symm
    _ = visibleFrom .outside s.toList := (visibleFrom_eq_flatMap _ _).symm
    _ = s.toList := visibleFrom_of_finished h

theorem finished_visible (s : String) : Finished (visible s).toList := by
  rw [visible, String.toList_ofList]
  exact finished_visibleFrom _ _

theorem visible_of_finished {s : String} (h : Finished s.toList) : visible s = s := by
  rw [visible, visibleFrom_of_finished h, String.ofList_toList]

/-- **The results of the scan are its fixed points**: the texts without NUL and quotes in which
white space stands right behind every `<`.  So a second scan changes nothing, and for it all
characters of a result are outside tags. -/
theorem visible_fixed_points (t : String) :
    List.TFAE [∃ s, visible s = t, Tagless t.toList, visible t = t] ∧
      visible (visible t) = visible t ∧ outer (visible t) = (visible t).toList := by
  refine ⟨?_, visible_of_finished (finished_visible t), outer_of_finished (finished_visible t)⟩
  tfae_have 1 → 2 := by
    intro h
    obtain ⟨s, hs⟩ := h
    rw [← hs]
    exact (finished_visible s).tagless
  tfae_have 2 → 3 := fun h => visible_of_finished h.finished
  tfae_have 3 → 1 := fun h => ⟨t, h⟩
  tfae_finish

/-- A `<` in front of a tag begins the tag itself, so that what stands behind it stays text. -/
example : visible "<<b>script> a < b<i>" = "script> a < b" := by decide

end Intake.Text.Markup
