import Mathlib.Data.List.DropRight
import Intake.Text.Trim

/-!
# Stripping a class of characters

What is left after stripping begins and ends outside the class, and such a text is left as it
is.  This holds of both trims.

* `strip_eq_self_iff`: the texts that stripping leaves as they are.
* `strip_strip`: stripping again changes nothing.
* `strip_isInfix`: what is left is a piece of the text; `exists_eq_append_strip` and
  `strip_append_append`: it stands between two runs of the class.
* `strip_append_cons`: a text with a character that is kept is stripped on either side of it.
* `sublist_strip`: what is left of a part of a text is a part of what is left of the text.
* `strip_flatMap`: a text can be stripped before or after its characters are written out.
-/

namespace Intake.Text

variable {p : Char → Bool} {cs : List Char} {c : Char}

/-- Stripping drops the class in front and then at the end. -/
theorem strip_eq_rdropWhile (p : Char → Bool) (cs : List Char) :
    strip p cs = (cs.dropWhile p).rdropWhile p := rfl

theorem strip_isInfix (p : Char → Bool) (cs : List Char) : strip p cs <:+: cs := by
  have hfront : cs.dropWhile p <:+ cs := List.dropWhile_suffix p
  have hend : (cs.dropWhile p).rdropWhile p <+: cs.dropWhile p :=
    List.rdropWhile_prefix p (cs.dropWhile p)
  exact hend.isInfix.trans hfront.isInfix

theorem length_strip_le (p : Char → Bool) (cs : List Char) :
    (strip p cs).length ≤ cs.length :=
  (strip_isInfix p cs).length_le

theorem strip_eq_nil_iff : strip p cs = [] ↔ ∀ c ∈ cs, p c = true := by
  rw [strip_eq_rdropWhile, List.rdropWhile_eq_nil_iff]
  constructor
  · intro h
    -- the first character that is kept in front would have to be dropped at the end
    have hfront : cs.dropWhile p = [] := by
      by_contra hne
      have hkept : p ((cs.dropWhile p).head hne) = false := List.head_dropWhile_not p hne
      have hdropped := h _ (List.head_mem hne)
      rw [hkept] at hdropped
      cases hdropped
    exact List.dropWhile_eq_nil_iff.1 hfront
  · intro h c hc
    exact h c ((List.dropWhile_suffix p).subset hc)

theorem not_of_head?_dropWhile (h : (cs.dropWhile p).head? = some c) : p c = false := by
  have hnot := List.head?_dropWhile_not p cs
  rw [h] at hnot
  exact hnot

theorem dropWhile_eq_self (h : ∀ c, cs.head? = some c → p c = false) : cs.dropWhile p = cs := by
  cases cs with
  | nil => rfl
  | cons c rest => rw [List.dropWhile_cons_of_neg (by simp [h c rfl])]

theorem not_of_head?_strip (h : (strip p cs).head? = some c) : p c = false := by
  -- the front is kept when the end is dropped
  have hfront : (cs.dropWhile p).head? = some c := by
    obtain ⟨rest, hrest⟩ := List.rdropWhile_prefix p (cs.dropWhile p)
    obtain ⟨tail, htail⟩ := List.head?_eq_some_iff.1 h
    rw [← hrest, ← strip_eq_rdropWhile, htail]
    rfl
  exact not_of_head?_dropWhile hfront

theorem not_of_getLast?_strip (h : (strip p cs).getLast? = some c) : p c = false := by
  have hne : (cs.dropWhile p).rdropWhile p ≠ [] := by
    rintro hnil
    rw [strip_eq_rdropWhile, hnil] at h
    cases h
  have hlast := List.rdropWhile_last_not p (cs.dropWhile p) hne
  rw [strip_eq_rdropWhile, List.getLast?_eq_getLast_of_ne_nil hne] at h
  rw [Option.some.inj h] at hlast
  simpa using hlast

/-- **Stripping leaves a text as it is if and only if it neither begins nor ends with a
character of the class.** -/
theorem strip_eq_self_iff :
    strip p cs = cs ↔ (∀ c, cs.head? = some c → p c = false) ∧
      ∀ c, cs.getLast? = some c → p c = false := by
  constructor
  · intro h
    constructor
    · intro c hc
      rw [← h] at hc
      exact not_of_head?_strip hc
    · intro c hc
      rw [← h] at hc
      exact not_of_getLast?_strip hc
  · rintro ⟨hhead, hlast⟩
    have hfront : cs.dropWhile p = cs := dropWhile_eq_self hhead
    have hend : cs.rdropWhile p = cs := by
      rw [List.rdropWhile_eq_self_iff]
      intro hne
      simp [hlast _ (List.getLast?_eq_getLast_of_ne_nil hne)]
    rw [strip_eq_rdropWhile, hfront, hend]

/-- A text without a character of the class is left as it is. -/
theorem strip_eq_self_of_forall (h : ∀ c ∈ cs, p c = false) : strip p cs = cs :=
  strip_eq_self_iff.2 ⟨fun c hc => h c (List.mem_of_head? hc),
    fun c hc => h c (List.mem_of_getLast? hc)⟩

/-- Stripping takes a run of the class from either end. -/
theorem exists_eq_append_strip (p : Char → Bool) (cs : List Char) :
    ∃ front back, cs = front ++ strip p cs ++ back ∧ (∀ c ∈ front, p c = true) ∧
      ∀ c ∈ back, p c = true := by
  refine ⟨cs.takeWhile p, (cs.dropWhile p).rtakeWhile p, ?_, fun c => List.mem_takeWhile_imp,
    fun c => List.mem_rtakeWhile_imp⟩
  rw [strip_eq_rdropWhile, List.append_assoc, List.rdropWhile_append_rtakeWhile,
    List.takeWhile_append_dropWhile]

/-- What stands between two runs of the class is left, if it has no character of the class. -/
theorem strip_append_append {front mid back : List Char} (hfront : ∀ c ∈ front, p c = true)
    (hmid : ∀ c ∈ mid, p c = false) (hback : ∀ c ∈ back, p c = true) :
    strip p (front ++ mid ++ back) = mid := by
  have hreverse : ∀ c ∈ back.reverse, p c = true := fun c hc => hback c (List.mem_reverse.1 hc)
  by_cases hnil : mid = []
  · subst hnil
    rw [strip_eq_nil_iff]
    intro c hc
    simp only [List.append_nil, List.mem_append] at hc
    exact hc.elim (hfront c) (hback c)
  · have hkept : (mid ++ back).dropWhile p = mid ++ back := by
      refine dropWhile_eq_self fun c hc => ?_
      rw [List.head?_append_of_ne_nil _ hnil] at hc
      exact hmid c (List.mem_of_head? hc)
    have hend : mid.reverse.dropWhile p = mid.reverse :=
      dropWhile_eq_self fun c hc => hmid c (List.mem_reverse.1 (List.mem_of_head? hc))
    rw [strip, List.append_assoc, List.dropWhile_append_of_pos hfront, hkept, List.reverse_append,
      List.dropWhile_append_of_pos hreverse, hend, List.reverse_reverse]

/-- A run of the class behind a text does not matter. -/
theorem strip_append_of_forall {back : List Char} (hback : ∀ c ∈ back, p c = true) :
    strip p (cs ++ back) = strip p cs := by
  by_cases hnone : cs.dropWhile p = []
  · have hcs : ∀ c ∈ cs, p c = true := List.dropWhile_eq_nil_iff.1 hnone
    rw [strip_eq_nil_iff.2 hcs, strip_eq_nil_iff]
    intro c hc
    exact (List.mem_append.1 hc).elim (hcs c) (hback c)
  · have hkept : (cs ++ back).dropWhile p = cs.dropWhile p ++ back := by
      rw [List.dropWhile_append, if_neg (by simpa using hnone)]
    have hreverse : ∀ c ∈ back.reverse, p c = true := fun c hc => hback c (List.mem_reverse.1 hc)
    rw [strip, strip, hkept, List.reverse_append, List.dropWhile_append_of_pos hreverse]

/-- A text with a character that is kept and nothing to drop in front of it is stripped behind. -/
theorem strip_append_cons {front back : List Char}
    (hfront : ∀ d, front.head? = some d → p d = false) (hc : p c = false) :
    strip p (front ++ c :: back) = front ++ c :: back.rdropWhile p := by
  have hback : front ++ c :: back =
      front ++ c :: back.rdropWhile p ++ back.rtakeWhile p := by
    rw [List.append_assoc, List.cons_append, List.rdropWhile_append_rtakeWhile]
  rw [hback, strip_append_of_forall fun d hd => List.mem_rtakeWhile_imp hd, strip_eq_self_iff]
  constructor
  · intro d hd
    cases front with
    | nil =>
      obtain rfl := Option.some.inj hd
      exact hc
    | cons e rest => exact hfront d hd
  · intro d hd
    rw [List.getLast?_append_of_ne_nil _ (List.cons_ne_nil _ _)] at hd
    by_cases hnil : back.rdropWhile p = []
    · rw [hnil] at hd
      obtain rfl := Option.some.inj hd
      exact hc
    · have hlast := List.rdropWhile_last_not p back hnil
      rw [List.getLast?_cons_of_ne_nil hnil, List.getLast?_eq_getLast_of_ne_nil hnil] at hd
      rw [Option.some.inj hd] at hlast
      simpa using hlast

/-- A filter that drops the class anyway does not see that it has been stripped. -/
theorem filter_strip {q : Char → Bool} (h : ∀ c, p c = true → q c = false) :
    (strip p cs).filter q = cs.filter q := by
  have hdrop : ∀ ds : List Char, (ds.dropWhile p).filter q = ds.filter q := by
    intro ds
    induction ds with
    | nil => rfl
    | cons d rest ih =>
      by_cases hd : p d = true
      · rw [List.dropWhile_cons_of_pos hd, ih, List.filter_cons_of_neg (by simp [h d hd])]
      · rw [List.dropWhile_cons_of_neg hd]
  rw [strip, List.filter_reverse, hdrop, ← List.filter_reverse, List.reverse_reverse, hdrop]

theorem sublist_dropWhile {ds : List Char} (h : ds.Sublist cs) :
    (ds.dropWhile p).Sublist (cs.dropWhile p) := by
  induction h with
  | slnil => exact .slnil
  | @cons ds cs c hsub ih =>
    by_cases hc : p c = true
    · rw [List.dropWhile_cons_of_pos hc]
      exact ih
    · rw [List.dropWhile_cons_of_neg hc]
      exact ((List.dropWhile_sublist p).trans hsub).cons c
  | @cons_cons ds cs c hsub ih =>
    by_cases hc : p c = true
    · rw [List.dropWhile_cons_of_pos hc, List.dropWhile_cons_of_pos hc]
      exact ih
    · rw [List.dropWhile_cons_of_neg hc, List.dropWhile_cons_of_neg hc]
      exact hsub.cons_cons c

/-- What is left of a part of a text is a part of what is left of the text. -/
theorem sublist_strip {ds : List Char} (h : ds.Sublist cs) :
    (strip p ds).Sublist (strip p cs) :=
  (sublist_dropWhile (sublist_dropWhile h).reverse).reverse

/-- Dropping the class commutes with writing: a character of the class is written with characters
of the class, and another one with some that are not. -/
theorem dropWhile_flatMap {f : Char → List Char} (hclass : ∀ c, p c = true → ∀ d ∈ f c, p d = true)
    (hother : ∀ c, p c = false → f c ≠ [] ∧ ∀ d ∈ f c, p d = false) :
    (cs.flatMap f).dropWhile p = (cs.dropWhile p).flatMap f := by
  induction cs with
  | nil => rfl
  | cons c rest ih =>
    rw [List.flatMap_cons]
    by_cases hc : p c = true
    · rw [List.dropWhile_append_of_pos (hclass c hc), ih, List.dropWhile_cons_of_pos hc]
    · obtain ⟨hne, hkept⟩ := hother c (by simpa using hc)
      obtain ⟨d, ds, hwritten⟩ := List.exists_cons_of_ne_nil hne
      have hd := hkept d (by simp [hwritten])
      rw [List.dropWhile_cons_of_neg hc, List.flatMap_cons, hwritten, List.cons_append,
        List.dropWhile_cons_of_neg (by simp [hd])]

theorem strip_flatMap {f : Char → List Char} (hclass : ∀ c, p c = true → ∀ d ∈ f c, p d = true)
    (hother : ∀ c, p c = false → f c ≠ [] ∧ ∀ d ∈ f c, p d = false) :
    strip p (cs.flatMap f) = (strip p cs).flatMap f := by
  have hbackward : ∀ ds : List Char,
      (ds.flatMap (List.reverse ∘ f)).dropWhile p =
        (ds.dropWhile p).flatMap (List.reverse ∘ f) := by
    intro ds
    refine dropWhile_flatMap (fun c hc d hd => hclass c hc d (List.mem_reverse.1 hd)) ?_
    intro c hc
    obtain ⟨hne, hkept⟩ := hother c hc
    exact ⟨by simpa using hne, fun d hd => hkept d (List.mem_reverse.1 hd)⟩
  have htwice : List.reverse ∘ List.reverse ∘ f = f := by
    funext c
    exact List.reverse_reverse (f c)
  rw [strip, dropWhile_flatMap hclass hother, List.reverse_flatMap, hbackward, List.reverse_flatMap,
    htwice]
  rfl

theorem strip_strip (p : Char → Bool) (cs : List Char) : strip p (strip p cs) = strip p cs :=
  strip_eq_self_iff.2 ⟨fun _ => not_of_head?_strip, fun _ => not_of_getLast?_strip⟩

/-! ### The two trims -/

/-- A text does not begin with white space. -/
def Unspaced (cs : List Char) : Prop :=
  ∀ c, cs.head? = some c → isWhite c = false

theorem unspaced_of_forall (h : ∀ c ∈ cs, isWhite c = false) : Unspaced cs := fun c hc =>
  h c (List.mem_of_head? hc)

theorem trim_trim (s : String) : trim (trim s) = trim s := by
  unfold trim
  rw [String.toList_ofList, strip_strip]

theorem trim_append_of_forall {s white : String} (h : ∀ c ∈ white.toList, isWhite c = true) :
    trim (s ++ white) = trim s := by
  rw [trim, trim, String.toList_append, strip_append_of_forall h]
theorem trimBlank_trimBlank (s : String) : trimBlank (trimBlank s) = trimBlank s := by
  unfold trimBlank
  rw [String.toList_ofList, strip_strip]

theorem trim_eq_empty_iff (s : String) : trim s = "" ↔ ∀ c ∈ s.toList, isWhite c = true := by
  rw [← strip_eq_nil_iff, ← String.toList_eq_nil_iff, trim, String.toList_ofList]

theorem trimBlank_eq_empty_iff (s : String) :
    trimBlank s = "" ↔ ∀ c ∈ s.toList, isBlank c = true := by
  rw [← strip_eq_nil_iff, ← String.toList_eq_nil_iff, trimBlank, String.toList_ofList]

end Intake.Text
