import Intake.Text.Split
import Intake.Proofs.Text.Stripping

/-!
# Splitting texts and joining them

Splitting at a separator and joining with it undo each other, as long as no piece has the
separator in it.

* `cut?_eq_some_iff` and `cutLast?_eq_some_iff`: the two parts of a text that is cut once.
* `mem_splitOn` and `mem_intercalate`: where the characters of pieces and of joined pieces stand.
* `pieces_intercalate`: the pieces of joined texts are these texts; `intercalate_pieces`: joined,
  the pieces of a text are the text again.
* `pieces_append`: the pieces of two texts with a separator between them;
  `pieces_append_of_not_mem`: with none in the second text.
* `Bare`: the texts that can stand between separators and are left as they are by trimming;
  `bare_trim`: what is left of a piece by trimming is such a text, unless nothing is left.
-/

namespace Intake.Text

/-! ### Cutting once -/

/-- A text is cut in front of and behind the first separator. -/
theorem cut?_eq_some_iff (sep : Char) (cs front back : List Char) :
    cut? sep cs = some (front, back) ↔ cs = front ++ sep :: back ∧ sep ∉ front := by
  induction cs generalizing front with
  | nil => simp [cut?]
  | cons c rest ih =>
    by_cases hc : c = sep
    · subst hc
      cases front with
      | nil => simp [cut?, eq_comm]
      | cons d front => simp +contextual [cut?]
    · cases front with
      | nil => simp [cut?, hc]
      | cons d front =>
        simp only [cut?, if_neg hc, Option.map_eq_some_iff, Prod.exists, Prod.mk.injEq,
          List.cons.injEq, List.cons_append, List.mem_cons, not_or]
        constructor
        · rintro ⟨front', back', hcut, ⟨rfl, rfl⟩, rfl⟩
          obtain ⟨hrest, hfront⟩ := (ih front').1 hcut
          exact ⟨⟨rfl, hrest⟩, Ne.symm hc, hfront⟩
        · rintro ⟨⟨rfl, hrest⟩, -, hfront⟩
          exact ⟨front, back, (ih front).2 ⟨hrest, hfront⟩, ⟨rfl, rfl⟩, rfl⟩

theorem cut?_eq_none_iff (sep : Char) (cs : List Char) : cut? sep cs = none ↔ sep ∉ cs := by
  induction cs with
  | nil => simp [cut?]
  | cons c rest ih =>
    by_cases hc : c = sep
    · simp [cut?, hc]
    · simp [cut?, hc, Ne.symm hc, ih]

/-- A text is cut in front of and behind the last separator. -/
theorem cutLast?_eq_some_iff (sep : Char) (cs front back : List Char) :
    cutLast? sep cs = some (front, back) ↔ cs = front ++ sep :: back ∧ sep ∉ back := by
  have hreverse : cs.reverse = back.reverse ++ sep :: front.reverse ↔
      cs = front ++ sep :: back := by
    rw [← List.reverse_inj, List.reverse_reverse]
    simp
  have hcut := cut?_eq_some_iff sep cs.reverse back.reverse front.reverse
  rw [hreverse, List.mem_reverse] at hcut
  rw [← hcut, cutLast?, Option.map_eq_some_iff]
  constructor
  · intro h
    obtain ⟨⟨before, behind⟩, hsome, heq⟩ := h
    obtain ⟨rfl, rfl⟩ := Prod.mk.inj heq
    simpa using hsome
  · intro h
    exact ⟨_, h, by simp⟩

/-! ### Pieces -/

theorem pieces_of_not_mem {sep : Char} {s : String} (h : sep ∉ s.toList) :
    pieces sep s = [s] := by
  rw [pieces, List.splitOn_eq_singleton h, List.map_singleton, String.ofList_toList]

/-- A character of joined pieces is the separator or stands in one of the pieces. -/
theorem mem_intercalate {sep c : Char} (parts : List (List Char))
    (h : c ∈ [sep].intercalate parts) : c = sep ∨ ∃ piece ∈ parts, c ∈ piece := by
  induction parts with
  | nil => simp at h
  | cons piece rest ih =>
    cases rest with
    | nil => exact .inr ⟨piece, List.mem_cons_self, by simpa using h⟩
    | cons next rest =>
      rw [List.intercalate_cons_cons] at h
      simp only [List.mem_append, List.mem_singleton] at h
      obtain (hpiece | hsep) | hrest := h
      · exact .inr ⟨piece, List.mem_cons_self, hpiece⟩
      · exact .inl hsep
      · obtain hsep | ⟨other, hother, hmem⟩ := ih hrest
        · exact .inl hsep
        · exact .inr ⟨other, List.mem_cons_of_mem _ hother, hmem⟩

/-- Every character of a text is the separator or stands in one of the pieces. -/
theorem mem_splitOn (sep : Char) {c : Char} {cs : List Char} (h : c ∈ cs) :
    c = sep ∨ ∃ piece ∈ cs.splitOn sep, c ∈ piece := by
  apply mem_intercalate
  rw [List.intercalate_splitOn]
  exact h

/-- No piece has the separator in it. -/
theorem not_mem_of_mem_splitOn {sep : Char} {cs piece : List Char}
    (h : piece ∈ cs.splitOn sep) : sep ∉ piece := by
  induction cs generalizing piece with
  | nil =>
    rw [List.splitOn_nil, List.mem_singleton] at h
    rw [h]
    exact List.not_mem_nil
  | cons c rest ih =>
    rw [List.splitOn_cons_eq_if_modifyHead] at h
    obtain ⟨first, others, hsplit⟩ :=
      List.exists_cons_of_ne_nil (List.splitOn_ne_nil sep rest)
    rw [hsplit] at h ih
    by_cases hc : c = sep
    · rw [if_pos (beq_iff_eq.2 hc)] at h
      rcases List.mem_cons.1 h with rfl | h
      · exact List.not_mem_nil
      · exact ih h
    · rw [if_neg (by simpa using hc), List.modifyHead_cons] at h
      rcases List.mem_cons.1 h with rfl | h
      · rw [List.mem_cons, not_or]
        exact ⟨Ne.symm hc, ih List.mem_cons_self⟩
      · exact ih (List.mem_cons_of_mem _ h)

/-- The pieces of a text are parts of it. -/
theorem subset_of_mem_splitOn {sep : Char} {cs piece : List Char}
    (h : piece ∈ cs.splitOn sep) : piece ⊆ cs := by
  have hjoin : ∀ parts : List (List Char), piece ∈ parts → piece ⊆ [sep].intercalate parts := by
    intro parts hmem
    induction parts with
    | nil => cases hmem
    | cons part rest ih =>
      by_cases hrest : rest = []
      · subst hrest
        rw [List.mem_singleton.1 hmem, List.intercalate_singleton]
        exact List.Subset.refl _
      · rw [List.intercalate_cons_of_ne_nil hrest]
        rcases List.mem_cons.1 hmem with rfl | hmem
        · exact fun c hc => List.mem_append_left _ (List.mem_append_left _ hc)
        · exact fun c hc => List.mem_append_right _ (ih hmem hc)
  have hcs := hjoin _ h
  rwa [List.intercalate_splitOn] at hcs

theorem of_mem_pieces {sep : Char} {s piece : String} (h : piece ∈ pieces sep s) :
    sep ∉ piece.toList ∧ piece.toList ⊆ s.toList := by
  obtain ⟨cs, hcs, rfl⟩ := List.mem_map.1 h
  rw [String.toList_ofList]
  exact ⟨not_mem_of_mem_splitOn hcs, subset_of_mem_splitOn hcs⟩

/-- **The pieces of joined texts are these texts.** -/
theorem pieces_intercalate {sep : Char} {joint : String} (hjoint : joint.toList = [sep])
    {parts : List String} (hne : parts ≠ []) (h : ∀ part ∈ parts, sep ∉ part.toList) :
    pieces sep (String.intercalate joint parts) = parts := by
  have hsplit : ([sep].intercalate (parts.map String.toList)).splitOn sep =
      parts.map String.toList := by
    refine List.splitOn_intercalate sep (fun cs hcs => ?_) (mt List.map_eq_nil_iff.1 hne)
    obtain ⟨part, hpart, rfl⟩ := List.mem_map.1 hcs
    exact h part hpart
  rw [pieces, String.toList_intercalate, hjoint, hsplit, List.map_map]
  simp [Function.comp_def]

/-- **A text is its pieces joined by the separator.** -/
theorem intercalate_pieces {sep : Char} {joint : String} (hjoint : joint.toList = [sep])
    (s : String) : String.intercalate joint (pieces sep s) = s := by
  have hlists : (pieces sep s).map String.toList = s.toList.splitOn sep := by
    simp [pieces, Function.comp_def]
  rw [← String.toList_inj, String.toList_intercalate, hjoint, hlists, List.intercalate_splitOn]

theorem pieces_ne_nil (sep : Char) (s : String) : pieces sep s ≠ [] :=
  mt List.map_eq_nil_iff.1 (List.splitOn_ne_nil sep s.toList)

/-- The pieces of two texts with a separator between them are those of either. -/
theorem pieces_append {sep : Char} {joint : String} (hjoint : joint.toList = [sep])
    (a b : String) : pieces sep (a ++ joint ++ b) = pieces sep a ++ pieces sep b := by
  rw [pieces, String.toList_append, String.toList_append, hjoint, List.append_assoc,
    List.singleton_append, List.splitOn_append_cons_self, List.map_append]
  rfl

/-- What stands behind a text and has no separator belongs to the last piece. -/
theorem pieces_append_of_not_mem {sep : Char} {tail : String} (h : sep ∉ tail.toList) (s : String) :
    ∃ front last, pieces sep s = front ++ [last] ∧
      pieces sep (s ++ tail) = front ++ [last ++ tail] := by
  cases hcut : cutLast? sep s.toList with
  | none =>
    have hs : sep ∉ s.toList := by
      rwa [cutLast?, Option.map_eq_none_iff, cut?_eq_none_iff, List.mem_reverse] at hcut
    refine ⟨[], s, pieces_of_not_mem hs, pieces_of_not_mem ?_⟩
    rw [String.toList_append, List.mem_append, not_or]
    exact ⟨hs, h⟩
  | some parts =>
    obtain ⟨before, behind⟩ := parts
    obtain ⟨hs, hbehind⟩ := (cutLast?_eq_some_iff _ _ _ _).1 hcut
    have hjoint : (String.singleton sep).toList = [sep] := String.toList_singleton sep
    have htext : s = String.ofList before ++ String.singleton sep ++ String.ofList behind := by
      rw [← String.toList_inj, hs]
      simp
    refine ⟨pieces sep (String.ofList before), String.ofList behind, ?_, ?_⟩
    · have hlast : sep ∉ (String.ofList behind).toList := by
        rwa [String.toList_ofList]
      rw [htext, pieces_append hjoint, pieces_of_not_mem hlast]
    · have hfree : sep ∉ (String.ofList behind ++ tail).toList := by
        rw [String.toList_append, String.toList_ofList, List.mem_append, not_or]
        exact ⟨hbehind, h⟩
      rw [htext, String.append_assoc, pieces_append hjoint, pieces_of_not_mem hfree]

theorem intercalate_ne_nil {sep : List Char} {parts : List (List Char)} (hne : parts ≠ [])
    (hparts : ∀ part ∈ parts, part ≠ []) : sep.intercalate parts ≠ [] := by
  obtain ⟨part, rest, rfl⟩ := List.exists_cons_of_ne_nil hne
  have hpart := hparts part List.mem_cons_self
  cases rest with
  | nil => rwa [List.intercalate_singleton]
  | cons next rest =>
    rw [List.intercalate_cons_cons, List.append_assoc]
    exact List.append_ne_nil_of_left_ne_nil hpart _

/-- Joined pieces end as one of the pieces does. -/
theorem exists_getLast?_intercalate {sep : List Char} {parts : List (List Char)} {c : Char}
    (hparts : ∀ part ∈ parts, part ≠ []) (h : (sep.intercalate parts).getLast? = some c) :
    ∃ part ∈ parts, part.getLast? = some c := by
  induction parts with
  | nil => cases h
  | cons part rest ih =>
    have hrests : ∀ part ∈ rest, part ≠ [] := fun part hpart =>
      hparts part (List.mem_cons_of_mem _ hpart)
    by_cases hrest : rest = []
    · subst hrest
      rw [List.intercalate_singleton] at h
      exact ⟨part, List.mem_cons_self, h⟩
    · rw [List.intercalate_cons_of_ne_nil hrest,
        List.getLast?_append_of_ne_nil _ (intercalate_ne_nil hrest hrests)] at h
      obtain ⟨last, hlast, hend⟩ := ih hrests h
      exact ⟨last, List.mem_cons_of_mem _ hlast, hend⟩

/-! ### Texts between separators -/

/-- A text that can stand between separators: it is not empty, has no white space around it and
none of the separators in it. -/
structure Bare (separators : List Char) (s : String) : Prop where
  ne_empty : s ≠ ""
  front : ∀ c, s.toList.head? = some c → isWhite c = false
  back : ∀ c, s.toList.getLast? = some c → isWhite c = false
  free : ∀ c ∈ separators, c ∉ s.toList

theorem trim_eq_self_iff (s : String) :
    trim s = s ↔ (∀ c, s.toList.head? = some c → isWhite c = false) ∧
      ∀ c, s.toList.getLast? = some c → isWhite c = false := by
  rw [← strip_eq_self_iff, trim, ← String.toList_inj, String.toList_ofList]

namespace Bare

variable {separators : List Char} {s : String}

theorem trim_eq (h : Bare separators s) : trim s = s :=
  (trim_eq_self_iff s).2 ⟨h.front, h.back⟩

theorem toList_ne_nil (h : Bare separators s) : s.toList ≠ [] :=
  mt String.toList_eq_nil_iff.1 h.ne_empty

/-- A text of characters that are neither white space nor separators. -/
theorem of_forall (hne : s ≠ "") (h : ∀ c ∈ s.toList, isWhite c = false ∧ c ∉ separators) :
    Bare separators s where
  ne_empty := hne
  front c hc := (h c (List.mem_of_head? hc)).1
  back c hc := (h c (List.mem_of_getLast? hc)).1
  free c hsep hc := (h c hc).2 hsep

theorem of_all (hne : s ≠ "")
    (h : (s.toList.all fun c => !isWhite c && !separators.contains c) = true) :
    Bare separators s := by
  refine of_forall hne fun c hc => ?_
  have hboth := List.all_eq_true.1 h c hc
  simpa using hboth

end Bare

/-- **What trimming leaves of a text without separators is bare**, if it leaves anything. -/
theorem bare_trim {separators : List Char} {s : String} (hne : trim s ≠ "")
    (hfree : ∀ c ∈ separators, c ∉ s.toList) : Bare separators (trim s) := by
  obtain ⟨hfront, hback⟩ := (trim_eq_self_iff (trim s)).1 (trim_trim s)
  refine ⟨hne, hfront, hback, fun c hsep hc => hfree c hsep ?_⟩
  rw [trim, String.toList_ofList] at hc
  exact (strip_isInfix isWhite s.toList).subset hc

end Intake.Text
