import Intake.Calendar
import Intake.Proofs.Number.Whole

/-!
# Dates as they are written

A date is written with four digits for the year and two each for month and day.  Such a text is
read whatever white space stands around it, and gives a date if the three numbers make one up.

* `Number.padded`: a number with leading zeros.
* `Date.written`: the text of a year, a month and a day.
* `Date.read?_written`: what is read from it.
-/

namespace Intake

open Number

namespace Number

/-- A number with zeros in front, up to a width. -/
def padded (width n : Nat) : List Char :=
  (Nat.toDigits 10 n).leftpad width '0'

theorem isDigit_of_mem_padded {width n : Nat} {c : Char} (h : c ∈ padded width n) :
    c.isDigit = true := by
  obtain hzero | hdigit := List.mem_append.1 h
  · rw [List.eq_of_mem_replicate hzero]
    decide
  · exact Nat.isDigit_of_mem_toDigits (by decide) (by decide) hdigit

theorem length_padded {width n : Nat} (hwidth : 0 < width) (h : n < 10 ^ width) :
    (padded width n).length = width := by
  have hle : (Nat.toDigits 10 n).length ≤ width :=
    (Nat.length_toDigits_le_iff (by decide) hwidth).2 h
  rw [padded, List.length_leftpad]
  omega

/-- Zeros in front do not count. -/
theorem digitsValue_padded (width n : Nat) : digitsValue (padded width n) = n := by
  have hzeros : ∀ count, digitsValue (List.replicate count '0') = 0 := by
    intro count
    rw [digitsValue, Nat.ofDigitChars_replicate_zero, Nat.mul_zero]
  rw [padded, List.leftpad, digitsValue_append, hzeros, Nat.zero_mul, Nat.zero_add,
    digitsValue_toDigits]

end Number

namespace Date

/-- The text `YYYY-MM-DD` of a year, a month and a day. -/
def written (year month day : Nat) : List Char :=
  padded 4 year ++ '-' :: (padded 2 month ++ '-' :: padded 2 day)

theorem isWhite_of_mem_written {year month day : Nat} {c : Char}
    (h : c ∈ written year month day) : Text.isWhite c = false := by
  simp only [written, List.mem_append, List.mem_cons] at h
  obtain hyear | rfl | hmonth | rfl | hday := h
  · exact isWhite_of_isDigit (isDigit_of_mem_padded hyear)
  · decide
  · exact isWhite_of_isDigit (isDigit_of_mem_padded hmonth)
  · decide
  · exact isWhite_of_isDigit (isDigit_of_mem_padded hday)

/-- A number that fills its width begins with a digit. -/
theorem exists_padded_append_eq {width n : Nat} (hwidth : 0 < width) (h : n < 10 ^ width)
    (rest : List Char) :
    ∃ c behind, padded width n ++ rest = c :: behind ∧ c.isDigit = true := by
  have hne : padded width n ≠ [] := by
    rw [← List.length_pos_iff, length_padded hwidth h]
    exact hwidth
  obtain ⟨c, digits, hdigits⟩ := List.exists_cons_of_ne_nil hne
  refine ⟨c, digits ++ rest, by rw [hdigits, List.cons_append], ?_⟩
  exact isDigit_of_mem_padded (by rw [hdigits]; exact List.mem_cons_self)

theorem dropWhile_padded_append {width n : Nat} (hwidth : 0 < width) (h : n < 10 ^ width)
    (rest : List Char) :
    (padded width n ++ rest).dropWhile Text.isWhite = padded width n ++ rest := by
  obtain ⟨c, behind, heq, hdigit⟩ := exists_padded_append_eq hwidth h rest
  rw [heq, List.dropWhile_cons_of_neg (by simp [isWhite_of_isDigit hdigit])]

/-- A number that fills its width is split off. -/
theorem takeNumber?_padded {width n : Nat} (hwidth : 0 < width) (h : n < 10 ^ width)
    {rest : List Char} (hrest : EndsDigits rest) :
    takeNumber? width (padded width n ++ rest) = some (n, rest) := by
  have hlength := length_padded hwidth h
  have hdigits : ((padded width n ++ rest).takeWhile Char.isDigit).take width =
      padded width n := by
    rw [(span_digits (fun c hc => isDigit_of_mem_padded hc) hrest).1,
      List.take_of_length_le (Nat.le_of_eq hlength)]
  have hne : (padded width n).isEmpty = false := by
    rw [List.isEmpty_eq_false_iff, ← List.length_pos_iff, hlength]
    exact hwidth
  unfold takeNumber?
  simp only [dropWhile_padded_append hwidth h, hdigits, hne, digitsValue_padded, List.drop_left]
  rfl

theorem takeYear?_padded {n : Nat} (h : n < 10 ^ 4) {rest : List Char} (hrest : EndsDigits rest) :
    takeYear? (padded 4 n ++ rest) = some ((n : Int), rest) := by
  have hnumber := takeNumber?_padded (by decide : 0 < 4) h hrest
  obtain ⟨c, behind, heq, hdigit⟩ := exists_padded_append_eq (by decide : 0 < 4) h rest
  unfold takeYear?
  simp only [dropWhile_padded_append (by decide : 0 < 4) h]
  rw [heq] at hnumber ⊢
  -- a digit is no sign
  split
  next heq' =>
    rw [(List.cons.inj heq').1] at hdigit
    cases hdigit
  next heq' =>
    rw [(List.cons.inj heq').1] at hdigit
    cases hdigit
  next =>
    rw [hnumber]
    rfl

/-- **A written date is read**, with white space around it, if its numbers make up a date. -/
theorem read?_written {year month day : Nat} (hyear : year ≤ 9999) (hmonth : month ≤ 99)
    (hday : day ≤ 99) {front back : List Char} (hfront : ∀ c ∈ front, Text.isWhite c = true)
    (hback : ∀ c ∈ back, Text.isWhite c = true) {t : String}
    (ht : t.toList = front ++ written year month day ++ back) :
    read? t = of? year month day := by
  have hhyphen : ∀ rest, EndsDigits ('-' :: rest) := endsDigits_cons (by decide)
  have hend : EndsDigits [] := by
    intro c hc
    cases hc
  have htakeYear := takeYear?_padded (n := year) (by omega)
    (hhyphen (padded 2 month ++ '-' :: padded 2 day))
  have htakeMonth := takeNumber?_padded (n := month) (by decide : 0 < 2) (by omega)
    (hhyphen (padded 2 day))
  have htakeDay := takeNumber?_padded (n := day) (by decide : 0 < 2) (by omega) hend
  rw [List.append_nil] at htakeDay
  unfold read?
  rw [ht, Text.strip_append_append hfront (fun c => isWhite_of_mem_written) hback, written,
    htakeYear]
  simp only [Option.bind_eq_bind, Option.bind_some, takeHyphen?, htakeMonth, htakeDay]
  rfl

end Date

end Intake
