import Intake.Proofs.Text.Stripping
import Intake.Proofs.Text.Visible

/-!
# The characters outside tags

The scan reads a text character by character, and what it writes for those outside tags is
written for each of them alone.  So the written text leads back to characters of the text.

* `outer`: the characters outside tags, in their order.
* `visibleFrom_eq_flatMap`: what a scan writes are these characters, each written alone.
* `shown`: those of them that can be seen, and `toList_trimBlank_visible`, which says that a
  text is cleaned and trimmed to them.
* `shown_sublist` and `shown_eq`: they are a part of the trimmed text, and all of it if nothing
  is hidden.
-/

namespace Intake.Text.Markup

/-! ### Outside tags -/

/-- The characters that a step finds to be outside tags.  That a `<` opens no tag is found out at
the white space behind it. -/
def Scan.found : Scan → Char → List Char
  | .outside, c => if c = '<' then [] else [c]
  | .opened, c => if isWhite c then ['<', c] else []
  | .inside, _ => []
  | .quoted _, _ => []

/-- The characters outside tags, from a given state. -/
def outerFrom : Scan → List Char → List Char
  | _, [] => []
  | s, c :: rest => s.found c ++ outerFrom (s.step c).2 rest

/-- The characters of a text outside tags. -/
def outer (s : String) : List Char :=
  outerFrom .outside s.toList

/-- **A step writes the characters that it finds, each alone.** -/
theorem Scan.step_eq_flatMap (s : Scan) (c : Char) :
    (s.step c).1 = (s.found c).flatMap written := by
  cases s with
  | outside =>
    by_cases hc : c = '<'
    · simp [step, found, hc]
    · simp [step, found, hc]
  | opened =>
    by_cases hwhite : isWhite c = true
    · have hc : written c = [c] := written_of_plain (plain_of_isWhite hwhite).1
      have hopen : written '<' = ['<'] := written_of_plain ⟨by decide, by decide, by decide⟩
      simp [step, found, hwhite, hc, hopen]
    · simp [step, found, hwhite]
  | inside => rfl
  | quoted quote => rfl

/-- **A scan writes the characters outside tags, each alone.** -/
theorem visibleFrom_eq_flatMap (s : Scan) (cs : List Char) :
    visibleFrom s cs = (outerFrom s cs).flatMap written := by
  induction cs generalizing s with
  | nil => rfl
  | cons c rest ih => rw [visibleFrom, outerFrom, List.flatMap_append, ih, s.step_eq_flatMap]

/-- What has been read and may turn out to be outside tags. -/
def Scan.pending : Scan → List Char
  | .opened => ['<']
  | _ => []

theorem Scan.pending_within (c : Char) : (within c).pending = [] := by
  unfold within
  split
  · rfl
  · split <;> rfl

/-- A step finds nothing but what was pending and the character read. -/
theorem Scan.found_sublist (s : Scan) (c : Char) :
    (s.found c ++ (s.step c).2.pending).Sublist (s.pending ++ [c]) := by
  cases s with
  | outside =>
    by_cases hc : c = '<'
    · simp [found, step, pending, hc]
    · simp [found, step, pending, hc]
  | opened =>
    by_cases hwhite : isWhite c = true
    · simp [found, step, pending, hwhite]
    · simp [found, step, pending_within, hwhite]
  | inside => simp [found, step, pending_within]
  | quoted quote =>
    by_cases hc : c = quote <;> simp [found, step, pending, hc]

/-- **The characters outside tags are a part of the text**, or of what was pending. -/
theorem outerFrom_sublist (s : Scan) (cs : List Char) :
    (outerFrom s cs).Sublist (s.pending ++ cs) := by
  induction cs generalizing s with
  | nil => exact List.nil_sublist _
  | cons c rest ih =>
    have hrest : (s.found c ++ outerFrom (s.step c).2 rest).Sublist
        (s.found c ++ ((s.step c).2.pending ++ rest)) := (ih _).append_left _
    have hfound : ((s.found c ++ (s.step c).2.pending) ++ rest).Sublist
        ((s.pending ++ [c]) ++ rest) := (s.found_sublist c).append_right _
    rw [List.append_assoc, List.append_assoc] at hfound
    exact hrest.trans hfound

theorem outer_sublist (s : String) : (outer s).Sublist s.toList :=
  outerFrom_sublist .outside s.toList

/-! ### Blanks -/

/-- A blank is written as itself or not at all. -/
theorem isBlank_of_mem_written {c d : Char} (hc : isBlank c = true) (hd : d ∈ written c) :
    isBlank d = true := by
  have hall : blanks.all (fun b => (written b).all isBlank) = true := by decide
  have hwritten := List.all_eq_true.1 hall c (by simpa [isBlank] using hc)
  exact List.all_eq_true.1 hwritten d hd

/-- What is not blank is written without blanks. -/
theorem written_of_not_isBlank {c : Char} (hc : isBlank c = false) :
    written c ≠ [] ∧ ∀ d ∈ written c, isBlank d = false := by
  have hsingle : "&#39;".toList.all (fun d => !isBlank d) = true := by decide
  have hdouble : "&#34;".toList.all (fun d => !isBlank d) = true := by decide
  have hnul : c ≠ '\x00' := by
    rintro rfl
    cases hc
  unfold written
  rw [if_neg hnul]
  split
  · exact ⟨by decide, fun d hd => by simpa using List.all_eq_true.1 hsingle d hd⟩
  · split
    · exact ⟨by decide, fun d hd => by simpa using List.all_eq_true.1 hdouble d hd⟩
    · refine ⟨List.cons_ne_nil _ _, fun d hd => ?_⟩
      rw [List.mem_singleton.1 hd]
      exact hc

/-! ### What can be seen -/

/-- The characters of a text that stand outside tags and can be seen: no NUL, and no blank at
either end. -/
def shown (s : String) : List Char :=
  (strip isBlank (outer s)).filter (· ≠ '\x00')

theorem flatMap_filter_nul (cs : List Char) :
    (cs.filter (· ≠ '\x00')).flatMap written = cs.flatMap written := by
  induction cs with
  | nil => rfl
  | cons c rest ih =>
    by_cases hc : c = '\x00'
    · rw [List.filter_cons_of_neg (by simp [hc]), ih, List.flatMap_cons, hc]
      rfl
    · rw [List.filter_cons_of_pos (by simp [hc]), List.flatMap_cons, List.flatMap_cons, ih]

/-- **A text is cleaned and trimmed to the characters that can be seen, each written alone.** -/
theorem toList_trimBlank_visible (s : String) :
    (trimBlank (visible s)).toList = (shown s).flatMap written := by
  rw [trimBlank, visible, String.toList_ofList, String.toList_ofList, visibleFrom_eq_flatMap,
    strip_flatMap (fun _ hc _ hd => isBlank_of_mem_written hc hd)
      (fun _ hc => written_of_not_isBlank hc), shown, flatMap_filter_nul]
  rfl

theorem ne_nul_of_mem_shown {s : String} {c : Char} (h : c ∈ shown s) : c ≠ '\x00' := by
  simpa using (List.mem_filter.1 h).2

/-- **The characters that can be seen are a part of the trimmed text.** -/
theorem shown_sublist (s : String) : (shown s).Sublist (trimBlank s).toList := by
  rw [trimBlank, String.toList_ofList]
  exact List.filter_sublist.trans (sublist_strip (outer_sublist s))

/-- All of the trimmed text can be seen if no character is inside a tag or NUL. -/
theorem shown_eq {s : String} (houter : outer s = s.toList) (hnul : '\x00' ∉ s.toList) :
    shown s = (trimBlank s).toList := by
  rw [shown, houter, trimBlank, String.toList_ofList, List.filter_eq_self]
  intro c hc
  have hmem := (strip_isInfix isBlank s.toList).subset hc
  simpa using fun h : c = '\x00' => hnul (h ▸ hmem)

end Intake.Text.Markup
