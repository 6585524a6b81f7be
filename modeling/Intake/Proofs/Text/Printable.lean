import Intake.Text.Alphabet

/-!
# Printable characters

Punctuation is listed mark by mark in the alphabets that texts are reduced to.  The same sets are
described here by the marks that they leave out of the printable characters of ASCII.

* `Text.mem_charsFrom`: characters with neighbouring codes, one by one.
* `Text.Printable`: the printable characters.
* `Text.isAlphanum_or_mem_iff`: letters, digits and some marks are all printable characters but for
  the other marks.
* `Text.Alphabet.Has`: the characters of an alphabet, and `Text.Alphabet.allows_iff_has`.
-/

namespace Intake.Text

/-- The characters with some codes in a row. -/
def charsFrom (first count : Nat) : List Char :=
  (List.range' first count).map Char.ofNat

theorem mem_charsFrom {c : Char} {first count : Nat} (hfirst : first ≤ c.toNat)
    (hlast : c.toNat < first + count) : c ∈ charsFrom first count :=
  List.mem_map.2 ⟨c.toNat, List.mem_range'_1.2 ⟨hfirst, hlast⟩, c.ofNat_toNat⟩

/-- The characters of ASCII that can be seen. -/
def Printable (c : Char) : Prop :=
  '!' ≤ c ∧ c ≤ '~'

instance (c : Char) : Decidable (Printable c) :=
  inferInstanceAs (Decidable (_ ∧ _))

theorem printable_of_isAlphanum {c : Char} (h : c.isAlphanum = true) : Printable c := by
  have hranges : (decide (65 ≤ c.val ∧ c.val ≤ 90) || (97 ≤ c.val && c.val ≤ 122) ||
      (48 ≤ c.val && c.val ≤ 57)) = true := h
  show (33 : UInt32) ≤ c.val ∧ c.val ≤ 126
  grind

theorem utf8Size_of_printable {c : Char} (h : Printable c) : c.utf8Size = 1 := by
  rw [Char.utf8Size_eq_one_iff]
  have hlast : c.val ≤ 126 := h.2
  exact UInt32.le_trans hlast (by decide)

/-- All printable characters. -/
def printables : List Char :=
  charsFrom 33 94

theorem mem_printables {c : Char} (h : Printable c) : c ∈ printables := by
  have hlast : c.toNat ≤ 126 := UInt32.le_iff_toNat_le.1 h.2
  exact mem_charsFrom (UInt32.le_iff_toNat_le.1 h.1) (by omega)

/-- **Letters, digits and some marks are the printable characters without the other marks.**  It
is enough to look at the printable characters one by one. -/
theorem isAlphanum_or_mem_iff (marks others : List Char)
    (hmarks : marks.all (Printable ·) = true)
    (hsame : printables.all
      (fun c => (c.isAlphanum || marks.contains c) == !others.contains c) = true) (c : Char) :
    c.isAlphanum = true ∨ c ∈ marks ↔ Printable c ∧ c ∉ others := by
  have hprintable : c.isAlphanum = true ∨ c ∈ marks → Printable c := by
    intro h
    obtain halnum | hmark := h
    · exact printable_of_isAlphanum halnum
    · exact of_decide_eq_true (List.all_eq_true.1 hmarks c hmark)
  have hiff : Printable c → (c.isAlphanum = true ∨ c ∈ marks ↔ c ∉ others) := by
    intro hc
    have hbits := beq_iff_eq.1 (List.all_eq_true.1 hsame c (mem_printables hc))
    rw [Bool.eq_iff_iff, Bool.or_eq_true, List.contains_iff_mem, Bool.not_eq_true',
      ← Bool.not_eq_true, List.contains_iff_mem] at hbits
    exact hbits
  constructor
  · intro h
    exact ⟨hprintable h, (hiff (hprintable h)).1 h⟩
  · intro h
    exact (hiff h.1).2 h.2

namespace Alphabet

/-- The characters of an alphabet.  Of the printable ones, addresses leave out ten marks and links
none; numbers are written with digits, signs and the point. -/
def Has : Alphabet → Char → Prop
  | address, c => Printable c ∧ c ∉ "\"(),/:;<>\\".toList
  | link, c => Printable c
  | integer, c => c.isDigit = true ∨ c = '+' ∨ c = '-'
  | decimal, c => c.isDigit = true ∨ c = '+' ∨ c = '-' ∨ c = '.'

/-- **An alphabet allows the characters that it has.** -/
theorem allows_iff_has (a : Alphabet) (c : Char) : a.allows c = true ↔ a.Has c := by
  cases a with
  | address =>
    rw [Has, ← isAlphanum_or_mem_iff addressMarks _ (by decide) (by decide)]
    simp [allows]
  | link =>
    have hiff := isAlphanum_or_mem_iff linkMarks [] (by decide) (by decide) c
    simpa [allows, Has] using hiff
  | integer => simp [allows, Has, or_assoc]
  | decimal => simp [allows, Has, or_assoc]

end Alphabet

end Intake.Text
