import Mathlib.Computability.Language

/-!
# Patterns

A pattern is a set of texts that is put together as a regular expression is: from single characters,
by one pattern behind another (`*`), by choice (`+`) and by repetition (`∗`).  A text matches if the
whole of it is in the set.

* `oneOf`, `char`, `optional`, `many` and `times` are what is needed besides these.
* `mem_kstar_oneOf`, `mem_many_oneOf` and `mem_times_oneOf`: repeating a class of characters gives
  the texts of this class, of any length, not empty, or of a length within bounds.
* `mem_separated` and `mem_terminated`: a repeated pattern with a separator between its parts, or
  behind each of them, gives the lists of such parts, joined.
-/

namespace Intake.Text.Pattern

open scoped Computability

variable {p : Char → Bool} {sep : Char} {cs : List Char} {L M : Language Char}

/-- One character of a class. -/
def oneOf (p : Char → Bool) : Language Char :=
  {cs | ∃ c, p c = true ∧ cs = [c]}

/-- This character. -/
def char (c : Char) : Language Char :=
  oneOf (· == c)

/-- A pattern or nothing. -/
def optional (L : Language Char) : Language Char :=
  1 + L

/-- A pattern at least once. -/
def many (L : Language Char) : Language Char :=
  L * L∗

/-- A pattern repeated, with bounds on how many times. -/
def times (least most : Nat) (L : Language Char) : Language Char :=
  {cs | ∃ n, least ≤ n ∧ n ≤ most ∧ cs ∈ L ^ n}

theorem mem_optional : cs ∈ optional L ↔ cs = [] ∨ cs ∈ L := by
  rw [optional, Language.mem_add, Language.mem_one]

theorem mem_oneOf : cs ∈ oneOf p ↔ ∃ c, p c = true ∧ cs = [c] := Iff.rfl

theorem mem_oneOf_mul : cs ∈ oneOf p * L ↔ ∃ c rest, p c = true ∧ rest ∈ L ∧ cs = c :: rest := by
  rw [Language.mem_mul]
  constructor
  · intro h
    obtain ⟨front, ⟨c, hc, rfl⟩, rest, hrest, rfl⟩ := h
    exact ⟨c, rest, hc, hrest, rfl⟩
  · intro h
    obtain ⟨c, rest, hc, hrest, rfl⟩ := h
    exact ⟨[c], ⟨c, hc, rfl⟩, rest, hrest, rfl⟩

theorem mem_char : cs ∈ char sep ↔ cs = [sep] := by
  constructor
  · intro h
    obtain ⟨c, hc, rfl⟩ := h
    rw [beq_iff_eq.1 hc]
  · intro h
    exact ⟨sep, beq_self_eq_true sep, h⟩

theorem mem_char_mul : cs ∈ char sep * L ↔ ∃ rest ∈ L, cs = sep :: rest := by
  rw [char, mem_oneOf_mul]
  simp only [beq_iff_eq, exists_and_left, exists_eq_left]

theorem mem_mul_char : cs ∈ L * char sep ↔ ∃ front ∈ L, cs = front ++ [sep] := by
  simp only [Language.mem_mul, mem_char, exists_eq_left, eq_comm]

/-! ### Repetition -/

section Form

variable {α : Type} {f : α → List Char} {good : α → Prop}

/-- Parts that have a form each are a list of what has been put into this form. -/
theorem exists_eq_map {parts : List (List Char)}
    (h : ∀ part ∈ parts, ∃ a, good a ∧ part = f a) :
    ∃ as : List α, parts = as.map f ∧ ∀ a ∈ as, good a := by
  induction parts with
  | nil => exact ⟨[], rfl, by simp⟩
  | cons part rest ih =>
    obtain ⟨a, ha, rfl⟩ := h part List.mem_cons_self
    obtain ⟨as, rfl, has⟩ := ih fun part hpart => h part (List.mem_cons_of_mem _ hpart)
    exact ⟨a :: as, rfl, List.forall_mem_cons.2 ⟨ha, has⟩⟩

/-- Repeating a pattern whose texts have a form. -/
theorem mem_kstar_of_form (h : ∀ cs, cs ∈ L ↔ ∃ a, good a ∧ cs = f a) (cs : List Char) :
    cs ∈ L∗ ↔ ∃ as : List α, (∀ a ∈ as, good a) ∧ cs = (as.map f).flatten := by
  rw [Language.mem_kstar]
  constructor
  · intro hcs
    obtain ⟨parts, rfl, hparts⟩ := hcs
    obtain ⟨as, rfl, has⟩ := exists_eq_map fun part hpart => (h part).1 (hparts part hpart)
    exact ⟨as, has, rfl⟩
  · intro hcs
    obtain ⟨as, has, rfl⟩ := hcs
    refine ⟨as.map f, rfl, fun part hpart => ?_⟩
    obtain ⟨a, ha, rfl⟩ := List.mem_map.1 hpart
    exact (h _).2 ⟨a, has a ha, rfl⟩

theorem mem_many_of_form (h : ∀ cs, cs ∈ L ↔ ∃ a, good a ∧ cs = f a) (cs : List Char) :
    cs ∈ many L ↔ ∃ as : List α, as ≠ [] ∧ (∀ a ∈ as, good a) ∧ cs = (as.map f).flatten := by
  rw [many, Language.mem_mul]
  constructor
  · intro hcs
    obtain ⟨front, hfront, back, hback, rfl⟩ := hcs
    obtain ⟨a, ha, rfl⟩ := (h front).1 hfront
    obtain ⟨as, has, rfl⟩ := (mem_kstar_of_form h back).1 hback
    exact ⟨a :: as, List.cons_ne_nil _ _, List.forall_mem_cons.2 ⟨ha, has⟩, rfl⟩
  · intro hcs
    obtain ⟨as, hne, has, rfl⟩ := hcs
    obtain ⟨a, as, rfl⟩ := List.exists_cons_of_ne_nil hne
    obtain ⟨ha, has⟩ := List.forall_mem_cons.1 has
    exact ⟨f a, (h _).2 ⟨a, ha, rfl⟩, _, (mem_kstar_of_form h _).2 ⟨as, has, rfl⟩, rfl⟩

end Form

theorem flatten_map_singleton (cs : List Char) : (cs.map ([·])).flatten = cs := by
  induction cs with
  | nil => rfl
  | cons c rest ih => rw [List.map_cons, List.flatten_cons, ih, List.singleton_append]

theorem mem_kstar_oneOf : cs ∈ (oneOf p)∗ ↔ ∀ c ∈ cs, p c = true := by
  rw [mem_kstar_of_form fun _ => mem_oneOf]
  simp only [flatten_map_singleton, exists_eq_right']

theorem mem_many_oneOf : cs ∈ many (oneOf p) ↔ cs ≠ [] ∧ ∀ c ∈ cs, p c = true := by
  rw [mem_many_of_form fun _ => mem_oneOf]
  simp only [flatten_map_singleton, ← and_assoc, exists_eq_right']

theorem mem_times_oneOf {least most : Nat} : cs ∈ times least most (oneOf p) ↔
    least ≤ cs.length ∧ cs.length ≤ most ∧ ∀ c ∈ cs, p c = true := by
  constructor
  · intro h
    obtain ⟨n, hleast, hmost, hpow⟩ := h
    obtain ⟨parts, rfl, rfl, hparts⟩ := Language.mem_pow.1 hpow
    obtain ⟨cs, rfl, hcs⟩ := exists_eq_map hparts
    rw [List.length_map] at hleast hmost
    rw [flatten_map_singleton]
    exact ⟨hleast, hmost, hcs⟩
  · intro h
    obtain ⟨hleast, hmost, hcs⟩ := h
    refine ⟨cs.length, hleast, hmost, Language.mem_pow.2
      ⟨cs.map ([·]), (flatten_map_singleton cs).symm, List.length_map _, fun part hpart => ?_⟩⟩
    obtain ⟨c, hc, rfl⟩ := List.mem_map.1 hpart
    exact ⟨c, hcs c hc, rfl⟩

/-! ### Parts with a separator -/

/-- In joined parts the separator stands in front of each part but the first. -/
theorem intercalate_cons_eq (sep : Char) (first : List Char) (rest : List (List Char)) :
    [sep].intercalate (first :: rest) = first ++ (rest.map (sep :: ·)).flatten := by
  induction rest generalizing first with
  | nil => simp
  | cons next rest ih =>
    rw [List.intercalate_cons_cons, ih, List.map_cons, List.flatten_cons, List.append_assoc]
    rfl

/-- In joined parts the separator stands behind each part but the last. -/
theorem intercalate_concat_eq (sep : Char) (parts : List (List Char)) (last : List Char) :
    [sep].intercalate (parts ++ [last]) = (parts.map (· ++ [sep])).flatten ++ last := by
  induction parts with
  | nil => simp
  | cons part rest ih =>
    rw [List.cons_append, List.intercalate_cons_of_ne_nil (by simp), ih, List.map_cons,
      List.flatten_cons, List.append_assoc (part ++ [sep])]

/-- **Parts with a separator between them.** -/
theorem mem_separated : cs ∈ L * (char sep * L)∗ ↔ ∃ parts : List (List Char), parts ≠ [] ∧
    (∀ part ∈ parts, part ∈ L) ∧ cs = [sep].intercalate parts := by
  have hrest := mem_kstar_of_form fun cs => @mem_char_mul sep cs L
  rw [Language.mem_mul]
  constructor
  · intro h
    obtain ⟨first, hfirst, behind, hbehind, rfl⟩ := h
    obtain ⟨rest, hparts, rfl⟩ := (hrest behind).1 hbehind
    exact ⟨first :: rest, List.cons_ne_nil _ _, List.forall_mem_cons.2 ⟨hfirst, hparts⟩,
      (intercalate_cons_eq sep first rest).symm⟩
  · intro h
    obtain ⟨parts, hne, hparts, rfl⟩ := h
    obtain ⟨first, rest, rfl⟩ := List.exists_cons_of_ne_nil hne
    obtain ⟨hfirst, hparts⟩ := List.forall_mem_cons.1 hparts
    exact ⟨first, hfirst, _, (hrest _).2 ⟨rest, hparts, rfl⟩,
      (intercalate_cons_eq sep first rest).symm⟩

/-- **Parts with a separator behind each of them**, and a last part of another kind. -/
theorem mem_terminated : cs ∈ many (L * char sep) * M ↔ ∃ (parts : List (List Char))
    (last : List Char), parts ≠ [] ∧ (∀ part ∈ parts, part ∈ L) ∧ last ∈ M ∧
      cs = [sep].intercalate (parts ++ [last]) := by
  have hparts := mem_many_of_form fun cs => @mem_mul_char sep cs L
  rw [Language.mem_mul]
  constructor
  · intro h
    obtain ⟨front, hfront, last, hlast, rfl⟩ := h
    obtain ⟨parts, hne, hmem, rfl⟩ := (hparts front).1 hfront
    exact ⟨parts, last, hne, hmem, hlast, (intercalate_concat_eq sep parts last).symm⟩
  · intro h
    obtain ⟨parts, last, hne, hmem, hlast, rfl⟩ := h
    exact ⟨_, (hparts _).2 ⟨parts, hne, hmem, rfl⟩, last, hlast,
      (intercalate_concat_eq sep parts last).symm⟩

end Intake.Text.Pattern
