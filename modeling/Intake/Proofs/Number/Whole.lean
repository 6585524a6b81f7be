import Intake.Proofs.Number.Grammar

/-!
# Whole numbers written and read

* `mem_decimal`: a whole number is written with digits and a minus sign.
* `isWhite_of_mem_decimal`: none of these is white space.
* `readWhole?_decimal` and `readInt64?_decimal`: it is read as itself.
-/

namespace Intake.Number

/-- A digit, or the minus sign in front. -/
theorem mem_decimal {n : Int} {c : Char} (h : c ∈ decimal n) : c = '-' ∨ c.isDigit = true := by
  unfold decimal at h
  split at h
  · exact (List.mem_cons.1 h).imp_right (Nat.isDigit_of_mem_toDigits (by decide) (by decide))
  · exact .inr (Nat.isDigit_of_mem_toDigits (by decide) (by decide) h)

/-- Digits are no white space. -/
theorem isWhite_of_isDigit {c : Char} (h : c.isDigit = true) : Text.isWhite c = false := by
  simp only [Char.isDigit, Bool.and_eq_true, decide_eq_true_eq, ge_iff_le,
    UInt32.le_iff_toNat_le] at h
  have hlow : 48 ≤ c.toNat := h.1
  have hhigh : c.toNat ≤ 57 := h.2
  simp [Text.isWhite, Text.whiteRanges]
  omega

/-- Digits and the minus sign are no white space. -/
theorem isWhite_of_mem_decimal {n : Int} {c : Char} (h : c ∈ decimal n) :
    Text.isWhite c = false := by
  obtain rfl | hdigit := mem_decimal h
  · decide
  · exact isWhite_of_isDigit hdigit

theorem decimal_ne_nil (n : Int) : decimal n ≠ [] := by
  unfold decimal
  split
  · exact List.cons_ne_nil _ _
  · exact Nat.toDigits_ne_nil

/-- A whole number is written as a sign, if it is negative, and the digits of its size. -/
theorem splitSign_decimal (n : Int) :
    splitSign (decimal n) = (decide (n < 0), Nat.toDigits 10 n.natAbs) := by
  have hdigits : ∀ c ∈ Nat.toDigits 10 n.natAbs, c.isDigit = true := fun c =>
    Nat.isDigit_of_mem_toDigits (by decide) (by decide)
  unfold decimal
  by_cases h : n < 0
  · rw [if_pos h, decide_eq_true h]
    rfl
  · rw [if_neg h, decide_eq_false h, splitSign_of_signless (signless_of_forall_isDigit hdigits)]

theorem digitsValue_toDigits (n : Nat) : digitsValue (Nat.toDigits 10 n) = n :=
  Nat.ofDigitChars_toDigits (by decide) (by decide)

/-- A number is its sign and its size. -/
theorem signed_natAbs (n : Int) : signed (decide (n < 0)) n.natAbs = n := by
  unfold signed
  by_cases h : n < 0
  · rw [if_pos (decide_eq_true h)]
    omega
  · rw [if_neg (by simp [h])]
    omega

theorem readWhole?_decimal (n : Int) : readWhole? (decimal n) = some n := by
  have hdigits : (Nat.toDigits 10 n.natAbs).all Char.isDigit = true :=
    List.all_eq_true.2 fun c => Nat.isDigit_of_mem_toDigits (by decide) (by decide)
  unfold readWhole?
  simp only [splitSign_decimal]
  rw [if_pos ⟨Nat.toDigits_ne_nil, hdigits⟩, digitsValue_toDigits, signed_natAbs]

/-- Two numbers are written in two ways. -/
theorem decimal_injective {n m : Int} (h : decimal n = decimal m) : n = m := by
  have hread := readWhole?_decimal n
  rw [h, readWhole?_decimal] at hread
  exact (Option.some.inj hread).symm

/-- **A number of 64 bits is read as it is written.** -/
theorem readInt64?_decimal (n : Int64) : readInt64? (decimal n.toInt) = some n := by
  have hlow : -2 ^ 63 ≤ n.toInt := n.le_toInt
  have hhigh : n.toInt < 2 ^ 63 := n.toInt_lt
  rw [readInt64?, readWhole?_decimal, Option.bind_some, int64?, if_pos (by omega),
    Int64.ofInt_toInt]

end Intake.Number
