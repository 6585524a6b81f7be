import Mathlib.Data.List.Chain
import Mathlib.Data.List.Pairwise
import Intake.Text.Markup

/-!
# What the markup scan writes

Text without NUL and quotes, in which white space stands behind every `<`, reads as text
outside all tags.  The scan writes nothing else, from whatever state it starts, and passes
such text through.

* `Settled` is this form of text, of which a `<` may be the last character, and `Finished` is
  settled text that does not end in `<`.
* `Scan.written_step` and `finished_visibleFrom`: what a step and what a scan write.
* `visibleFrom_append`: finished text is written as it is, whatever follows.
* `visibleFrom_of_settled`: settled text loses a `<` at its end.
-/

namespace Intake.Text.Markup

/-- A character that the scan passes through outside tags. -/
def IsPlain (c : Char) : Prop :=
  c ≠ '\x00' ∧ c ≠ '\'' ∧ c ≠ '\"'

/-- Text as it stands outside tags. -/
structure Settled (cs : List Char) : Prop where
  plain : ∀ c ∈ cs, IsPlain c
  /-- White space stands behind every `<` but a last one. -/
  spaced : cs.IsChain fun c next => c = '<' → isWhite next = true

/-- Text as it stands outside tags, up to a place where any text may follow. -/
structure Finished (cs : List Char) : Prop extends Settled cs where
  closed : cs.getLast? ≠ some '<'

variable {cs rest front : List Char} {c : Char}

theorem Settled.of_isInfix {ds : List Char} (h : Settled cs) (hin : ds <:+: cs) :
    Settled ds where
  plain c hc := h.plain c (hin.subset hc)
  spaced := List.IsChain.infix h.spaced hin

theorem Settled.tail (h : Settled (c :: rest)) : Settled rest :=
  h.of_isInfix (List.suffix_cons c rest).isInfix

theorem finished_nil : Finished [] :=
  ⟨⟨by simp, by simp⟩, by simp⟩

theorem Finished.tail (h : Finished (c :: rest)) : Finished rest := by
  refine ⟨h.toSettled.tail, ?_⟩
  cases rest with
  | nil => simp
  | cons d rest => exact h.closed

/-- Plain characters other than `<` may stand in front. -/
theorem Finished.append (h : Finished rest) (hfront : ∀ d ∈ front, IsPlain d ∧ d ≠ '<') :
    Finished (front ++ rest) := by
  have hspaced : front.IsChain fun c next => c = '<' → isWhite next = true := by
    refine List.Pairwise.isChain (List.pairwise_of_forall_mem_list ?_)
    intro c hc next _ he
    exact absurd he (hfront c hc).2
  refine ⟨⟨?_, ?_⟩, ?_⟩
  · intro d hd
    rcases List.mem_append.1 hd with hd | hd
    · exact (hfront d hd).1
    · exact h.plain d hd
  · refine List.isChain_append.2 ⟨hspaced, h.spaced, ?_⟩
    intro c hc next _ he
    exact absurd he (hfront c (List.mem_of_getLast? hc)).2
  · intro hlast
    rw [List.getLast?_append] at hlast
    cases hrest : rest.getLast? with
    | some d =>
      rw [hrest] at hlast
      exact h.closed (hrest.trans hlast)
    | none =>
      rw [hrest, Option.none_or] at hlast
      exact (hfront '<' (List.mem_of_getLast? hlast)).2 rfl

/-- White space has no role in the scan but behind a `<`. -/
theorem plain_of_isWhite (h : isWhite c = true) : IsPlain c ∧ c ≠ '<' := by
  refine ⟨⟨?_, ?_, ?_⟩, ?_⟩ <;> rintro rfl <;> exact absurd h (by decide)

/-- A `<` with white space behind it may stand in front. -/
theorem Finished.cons_cons (h : Finished rest) (hwhite : isWhite c = true) :
    Finished ('<' :: c :: rest) := by
  have hfront : ∀ d ∈ [c], IsPlain d ∧ d ≠ '<' := by
    intro d hd
    obtain rfl := List.mem_singleton.1 hd
    exact plain_of_isWhite hwhite
  have hnext : Finished (c :: rest) := h.append hfront
  refine ⟨⟨?_, ?_⟩, hnext.closed⟩
  · intro d hd
    rcases List.mem_cons.1 hd with rfl | hd
    · exact ⟨by decide, by decide, by decide⟩
    · exact hnext.plain d hd
  · exact List.isChain_cons_cons.2 ⟨fun _ => hwhite, hnext.spaced⟩

/-! ### What is written -/

theorem written_of_plain (h : IsPlain c) : written c = [c] := by
  unfold written
  rw [if_neg h.1, if_neg h.2.1, if_neg h.2.2]

/-- What is written for a character other than `<` has no role in the scan. -/
theorem plain_of_mem_written (hc : c ≠ '<') {d : Char} (hd : d ∈ written c) :
    IsPlain d ∧ d ≠ '<' := by
  have hall : ("&#39;".toList ++ "&#34;".toList).all
      (fun d => (d ≠ '\x00' ∧ d ≠ '\'' ∧ d ≠ '\"') ∧ d ≠ '<') = true := by decide
  have hreference : ∀ d ∈ "&#39;".toList ++ "&#34;".toList,
      (d ≠ '\x00' ∧ d ≠ '\'' ∧ d ≠ '\"') ∧ d ≠ '<' :=
    fun d hd => of_decide_eq_true (List.all_eq_true.1 hall d hd)
  unfold written at hd
  split at hd
  · cases hd
  · split at hd
    · exact hreference d (List.mem_append_left _ hd)
    · split at hd
      · exact hreference d (List.mem_append_right _ hd)
      · rename_i hnul hsingle hdouble
        obtain rfl := List.mem_singleton.1 hd
        exact ⟨⟨hnul, hsingle, hdouble⟩, hc⟩

/-- **What a step writes**: characters without a role in the scan, or a `<` with the white
space behind it. -/
theorem Scan.written_step (s : Scan) (c : Char) :
    (∀ d ∈ (s.step c).1, IsPlain d ∧ d ≠ '<') ∨
      isWhite c = true ∧ (s.step c).1 = ['<', c] := by
  cases s with
  | outside =>
    left
    intro d hd
    by_cases hc : c = '<'
    · simp [step, hc] at hd
    · rw [step, if_neg hc] at hd
      exact plain_of_mem_written hc hd
  | opened =>
    by_cases hwhite : isWhite c = true
    · exact Or.inr ⟨hwhite, by rw [step, if_pos hwhite]⟩
    · left
      simp [step, hwhite]
  | inside => exact Or.inl (by simp [step])
  | quoted quote => exact Or.inl (by simp [step])

/-- **What a scan writes is finished text.** -/
theorem finished_visibleFrom (s : Scan) (cs : List Char) : Finished (visibleFrom s cs) := by
  induction cs generalizing s with
  | nil => exact finished_nil
  | cons c rest ih =>
    rw [visibleFrom]
    rcases s.written_step c with hplain | ⟨hwhite, hstep⟩
    · exact (ih _).append hplain
    · rw [hstep]
      exact (ih _).cons_cons hwhite

/-! ### Text that is written as it is -/

/-- Finished text is written as it is, also when its first `<` has been read already. -/
theorem visibleFrom_append (cs rest : List Char) :
    (Finished cs → visibleFrom .outside (cs ++ rest) = cs ++ visibleFrom .outside rest) ∧
    (Finished ('<' :: cs) →
      visibleFrom .opened (cs ++ rest) = '<' :: cs ++ visibleFrom .outside rest) := by
  induction cs with
  | nil =>
    refine ⟨fun _ => rfl, fun h => ?_⟩
    exact absurd rfl h.closed
  | cons c cs ih =>
    constructor
    · intro h
      by_cases hc : c = '<'
      · subst hc
        show visibleFrom .opened (cs ++ rest) = _
        exact ih.2 h
      · have hstep : Scan.outside.step c = ([c], .outside) := by
          rw [Scan.step, if_neg hc, written_of_plain (h.plain c (List.mem_cons_self ..))]
        rw [List.cons_append, visibleFrom, hstep]
        show c :: visibleFrom .outside (cs ++ rest) = _
        rw [ih.1 h.tail]
        rfl
    · intro h
      have hwhite : isWhite c = true := (List.isChain_cons_cons.1 h.spaced).1 rfl
      have hstep : Scan.opened.step c = (['<', c], .outside) := by
        rw [Scan.step, if_pos hwhite]
      rw [List.cons_append, visibleFrom, hstep]
      show '<' :: c :: visibleFrom .outside (cs ++ rest) = _
      rw [ih.1 h.tail.tail]
      rfl

theorem visibleFrom_of_finished (h : Finished cs) : visibleFrom .outside cs = cs := by
  have happend := (visibleFrom_append cs []).1 h
  rwa [List.append_nil, visibleFrom, List.append_nil] at happend

/-- **Settled text loses a `<` at its end.** -/
theorem visibleFrom_of_settled (h : Settled (cs ++ ['<'])) :
    visibleFrom .outside (cs ++ ['<']) = cs := by
  have hfinished : Finished cs := by
    refine ⟨h.of_isInfix (List.prefix_append cs _).isInfix, ?_⟩
    -- otherwise the last `<` would be the white space behind the one in front of it
    intro hlast
    have hwhite := (List.isChain_append.1 h.spaced).2.2 '<' hlast '<' rfl rfl
    exact absurd hwhite (by decide)
  rw [(visibleFrom_append cs ['<']).1 hfinished]
  exact List.append_nil cs

theorem length_visibleFrom_lt (h : Settled cs) (hlast : cs.getLast? = some '<') :
    (visibleFrom .outside cs).length < cs.length := by
  obtain ⟨front, rfl⟩ := List.getLast?_eq_some_iff.1 hlast
  rw [visibleFrom_of_settled h, List.length_append]
  exact Nat.lt_succ_self _

end Intake.Text.Markup
