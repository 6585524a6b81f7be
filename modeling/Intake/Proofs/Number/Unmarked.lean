import Intake.Proofs.Number.Grammar
import Intake.Text.Alphabet

/-!
# Numbers without the mark of their exponent

The alphabet of decimal numbers has digits, signs and the point, but not the mark of an exponent.
A number that is reduced to it loses the mark, and the digits of the exponent are then taken for
digits of the number itself.

* `Numeral.filter_strip_text`: what the alphabet leaves of a spelling.
* `Numeral.isNumeral_unmarked_iff`: what is left reads as a number unless the exponent had a sign.
* `Numeral.denotes_unmarked_iff`: when it is the same number.
-/

namespace Intake.Number

open Text (Alphabet)

/-! ### What the alphabet leaves -/

theorem allows_of_isDigit {c : Char} (h : c.isDigit = true) : Alphabet.decimal.allows c = true := by
  show (c.isDigit || _ || _ || _) = true
  rw [h]
  rfl

theorem not_allows_of_isPadding {c : Char} (h : isPadding c = true) :
    Alphabet.decimal.allows c = false := by
  have hpadding : [' ', '\t', '\n', '\r', '\x0B', '\x0C'].all
      (fun b => !Alphabet.decimal.allows b) = true := by decide
  simpa using List.all_eq_true.1 hpadding c (by simpa [isPadding] using h)

theorem allows_signText {sign : Option Bool} {c : Char} (h : c ∈ signText sign) :
    Alphabet.decimal.allows c = true := by
  obtain rfl | rfl := eq_of_mem_signText h
  · decide
  · decide

namespace Exponent

theorem allows_unmarked (e : Exponent) {c : Char} (h : c ∈ e.unmarked) :
    Alphabet.decimal.allows c = true := by
  obtain h | h := List.mem_append.1 h
  · exact allows_signText h
  · exact allows_of_isDigit (e.isDigit_of_mem h)

theorem not_allows_mark (e : Exponent) : Alphabet.decimal.allows e.mark = false := by
  obtain h | h := e.marks
  · rw [h]
    decide
  · rw [h]
    decide

theorem filter_text (e : Exponent) : e.text.filter Alphabet.decimal.allows = e.unmarked := by
  rw [text, List.filter_cons_of_neg (by simp [e.not_allows_mark]), List.filter_eq_self]
  exact fun c hc => e.allows_unmarked hc

end Exponent

namespace Numeral

/-- The text of a numeral without the mark of its exponent. -/
def unmarked (n : Numeral) : List Char :=
  signText n.sign ++ (n.mantissa ++ (n.exponent.map Exponent.unmarked).getD [])

theorem allows_mantissa (n : Numeral) {c : Char} (h : c ∈ n.mantissa) :
    Alphabet.decimal.allows c = true := by
  obtain h | rfl := n.mem_mantissa h
  · exact allows_of_isDigit h
  · decide

/-- The alphabet takes the mark of the exponent from a spelling. -/
theorem filter_text (n : Numeral) : n.text.filter Alphabet.decimal.allows = n.unmarked := by
  have hsign : (signText n.sign).filter Alphabet.decimal.allows = signText n.sign :=
    List.filter_eq_self.2 fun c hc => allows_signText hc
  have hmantissa : n.mantissa.filter Alphabet.decimal.allows = n.mantissa :=
    List.filter_eq_self.2 fun c hc => n.allows_mantissa hc
  have hexponent : (exponentText n.exponent).filter Alphabet.decimal.allows =
      (n.exponent.map Exponent.unmarked).getD [] := by
    cases n.exponent with
    | none => rfl
    | some e => exact e.filter_text
  rw [text, unmarked, List.filter_append, List.filter_append, hsign, hmantissa, hexponent]

/-- The alphabet takes the padding and the mark from a text that reads as a number. -/
theorem filter_of_strip {cs : List Char} {n : Numeral} (h : Text.strip isPadding cs = n.text) :
    cs.filter Alphabet.decimal.allows = n.unmarked := by
  rw [← n.filter_text, ← h, Text.filter_strip fun c hc => not_allows_of_isPadding hc]

theorem allows_of_mem_unmarked (n : Numeral) {c : Char} (h : c ∈ n.unmarked) :
    Alphabet.decimal.allows c = true := by
  rw [← n.filter_text] at h
  exact (List.mem_filter.1 h).2

theorem strip_unmarked (n : Numeral) : Text.strip isPadding n.unmarked = n.unmarked := by
  refine Text.strip_eq_self_of_forall fun c hc => ?_
  by_contra hpadding
  rw [Bool.not_eq_false] at hpadding
  have hallowed := n.allows_of_mem_unmarked hc
  rw [not_allows_of_isPadding hpadding] at hallowed
  cases hallowed

/-! ### Digits that change sides -/

/-- More digits behind the last digit of a numeral. -/
theorem digits_append_eq (whole ds : List Char) (fraction : Option (List Char)) :
    (whole ++ if fraction.isNone then ds else []) ++ (fraction.map (· ++ ds)).getD [] =
      (whole ++ fraction.getD []) ++ ds := by
  cases fraction <;> simp

/-- A numeral with more digits behind its last one, and no exponent. -/
def absorb (n : Numeral) (ds : List Char) (hds : ∀ c ∈ ds, c.isDigit = true) : Numeral where
  sign := n.sign
  whole := n.whole ++ if n.fraction.isNone then ds else []
  fraction := n.fraction.map (· ++ ds)
  exponent := none
  proper := by
    obtain ⟨hne, hdigits⟩ := (isDigits_iff _).1 n.proper
    rw [digits_append_eq, isDigits_iff]
    exact ⟨fun hnil => hne (List.append_eq_nil_iff.1 hnil).1,
      fun c hc => (List.mem_append.1 hc).elim (hdigits c) (hds c)⟩

section Absorb

variable (n : Numeral) {ds : List Char} (hds : ∀ c ∈ ds, c.isDigit = true)

theorem digits_absorb : (n.absorb ds hds).digits = n.digits ++ ds :=
  digits_append_eq n.whole ds n.fraction

theorem text_absorb : (n.absorb ds hds).text = signText n.sign ++ (n.mantissa ++ ds) := by
  have hmantissa : (n.absorb ds hds).mantissa = n.mantissa ++ ds := by
    show (n.whole ++ if n.fraction.isNone then ds else []) ++
      fractionText (n.fraction.map (· ++ ds)) = (n.whole ++ fractionText n.fraction) ++ ds
    cases n.fraction <;> simp [fractionText]
  rw [text, hmantissa]
  simp [absorb, exponentText]

theorem scale_absorb : (n.absorb ds hds).scale =
    -((n.fraction.getD []).length + if n.fraction.isNone then 0 else ds.length : Int) := by
  show (0 : Int) - ((n.fraction.map (· ++ ds)).getD []).length = _
  cases n.fraction <;> simp

end Absorb

/-! ### What reads as a number -/

/-- A numeral without the letters of a mark has no exponent. -/
theorem exponent_eq_none {m : Numeral}
    (h : ∀ c ∈ m.text, Alphabet.decimal.allows c = true) : m.exponent = none := by
  cases he : m.exponent with
  | none => rfl
  | some e =>
    have hmem : e.mark ∈ m.text := by
      rw [text, he]
      exact List.mem_append_right _ (List.mem_append_right _ List.mem_cons_self)
    have hallowed := h _ hmem
    rw [e.not_allows_mark] at hallowed
    cases hallowed

/-- **Without the mark of its exponent a numeral reads as a number unless the exponent has a
sign.** -/
theorem isNumeral_unmarked_iff (n : Numeral) :
    isNumeral n.unmarked = true ↔ ∀ e, n.exponent = some e → e.sign = none := by
  rw [isNumeral_iff, n.strip_unmarked]
  constructor
  · intro h e he
    obtain ⟨m, hm⟩ := h
    have hnone : m.exponent = none := exponent_eq_none fun c hc =>
      n.allows_of_mem_unmarked (hm ▸ hc)
    rw [unmarked, text, he, hnone] at hm
    obtain ⟨-, hrest⟩ := signText_append_inj (n.signless_mantissa_append _)
      (m.signless_mantissa_append _) hm
    -- a sign inside the digits of `m` is none of its characters
    have hsub : ∀ c ∈ signText e.sign, c.isDigit = true ∨ c = '.' := by
      intro c hc
      have hmem : c ∈ m.mantissa ++ exponentText none := by
        rw [← hrest]
        exact List.mem_append_right _ (List.mem_append_left _ hc)
      rw [exponentText, Option.map_none, Option.getD_none, List.append_nil] at hmem
      exact m.mem_mantissa hmem
    cases hsign : e.sign with
    | none => rfl
    | some negative =>
      obtain ⟨c, hc⟩ := List.exists_mem_of_ne_nil _ (signText_ne_nil negative)
      rw [hsign] at hsub
      obtain rfl | rfl := eq_of_mem_signText hc
      · exact absurd (hsub '-' hc) (by decide)
      · exact absurd (hsub '+' hc) (by decide)
  · intro h
    cases he : n.exponent with
    | none => exact ⟨n, by rw [unmarked, text, he]; rfl⟩
    | some e =>
      refine ⟨n.absorb e.digits fun c hc => e.isDigit_of_mem hc, ?_⟩
      rw [text_absorb, unmarked, he, Option.map_some, Option.getD_some, Exponent.unmarked, h e he]
      rfl

/-! ### What number it is -/

theorem signed_mul_eq_iff (negative : Bool) (a b : ℕ) (x y : ℚ) :
    (signed negative a : ℚ) * x = signed negative b * y ↔ (a : ℚ) * x = b * y := by
  cases negative <;> simp [signed]

theorem scaled_eq_iff (a b k : ℕ) (z : ℤ) :
    (a : ℚ) * 10 ^ (k + z) = b * 10 ^ z ↔ a * 10 ^ k = b := by
  have hten : (10 : ℚ) ^ z ≠ 0 := zpow_ne_zero _ (by norm_num)
  rw [zpow_add₀ (by norm_num), ← mul_assoc, mul_left_inj' hten, zpow_natCast]
  exact_mod_cast Iff.rfl

/-- A number is not scaled up by adding less than itself. -/
theorem scaled_ne_add {x d k : ℕ} (hd : 0 < d) (hx : x = 0 ∨ d < x) (hk : 0 < k) :
    x * 10 ^ k ≠ x + d := by
  have hten : 10 ≤ 10 ^ k := Nat.le_self_pow hk.ne' 10
  have hmul : x * 10 ≤ x * 10 ^ k := Nat.mul_le_mul_left x hten
  intro heq
  obtain rfl | hlt := hx
  · omega
  · omega

/-- Digits that stand in front of `l` further digits `d`. -/
theorem zero_or_lt_shift {m d l : ℕ} (hd : d < 10 ^ l) : m * 10 ^ l = 0 ∨ d < m * 10 ^ l := by
  obtain rfl | hm := Nat.eq_zero_or_pos m
  · exact .inl (Nat.zero_mul _)
  · exact .inr (lt_of_lt_of_le hd (Nat.le_mul_of_pos_left _ hm))

/-- The exponent is taken for further decimals. -/
theorem decimals_eq_iff {m d l : ℕ} (hd : d < 10 ^ l) :
    m * 10 ^ (d + l) = m * 10 ^ l + d ↔ d = 0 := by
  constructor
  · intro h
    by_contra hzero
    have hpos : 0 < d := Nat.pos_of_ne_zero hzero
    rw [Nat.pow_add, Nat.mul_comm (10 ^ d), ← Nat.mul_assoc] at h
    exact scaled_ne_add hpos (zero_or_lt_shift hd) hpos h
  · rintro rfl
    simp

/-- The exponent is taken for further whole digits. -/
theorem wholes_eq_iff {m d l : ℕ} (hd : d < 10 ^ l) (hl : 0 < l) :
    m * 10 ^ d = m * 10 ^ l + d ↔ m = 0 ∧ d = 0 := by
  constructor
  · intro h
    obtain rfl | hpos := Nat.eq_zero_or_pos d
    · have hten : 10 ≤ 10 ^ l := Nat.le_self_pow hl.ne' 10
      have hmul : m * 10 ≤ m * 10 ^ l := Nat.mul_le_mul_left m hten
      exact ⟨by omega, rfl⟩
    · exfalso
      by_cases hle : d ≤ l
      · have hmul : m * 10 ^ d ≤ m * 10 ^ l :=
          Nat.mul_le_mul_left m (Nat.pow_le_pow_right (by decide) hle)
        omega
      · have hsplit : m * 10 ^ d = m * 10 ^ l * 10 ^ (d - l) := by
          rw [Nat.mul_assoc, ← Nat.pow_add]
          congr 2
          omega
        rw [hsplit] at h
        exact scaled_ne_add hpos (zero_or_lt_shift hd) (by omega) h
  · rintro ⟨rfl, rfl⟩
    simp

/-- Digits of an exponent without sign, taken for digits of the number. -/
theorem value_absorb_eq_iff (n : Numeral) {e : Exponent} (he : n.exponent = some e)
    (hsign : e.sign = none) :
    n.value = (n.absorb e.digits fun _ hc => e.isDigit_of_mem hc).value ↔
      digitsValue e.digits = 0 ∧ (n.fraction = none → digitsValue n.digits = 0) := by
  have hlt : digitsValue e.digits < 10 ^ e.digits.length :=
    digitsValue_lt fun c hc => e.isDigit_of_mem hc
  have hexponent : e.value = digitsValue e.digits := by
    rw [Exponent.value, hsign]
    rfl
  unfold value
  rw [digits_absorb, digitsValue_append, scale_absorb, scale, he, Option.map_some,
    Option.getD_some, hexponent]
  show (signed (n.sign == some true) _ : ℚ) * _ = signed (n.sign == some true) _ * _ ↔ _
  rw [signed_mul_eq_iff]
  cases hfraction : n.fraction with
  | none =>
    have hpos : 0 < e.digits.length :=
      List.length_pos_iff.2 ((isDigits_iff _).1 e.proper).1
    have hiff := scaled_eq_iff (digitsValue n.digits)
      (digitsValue n.digits * 10 ^ e.digits.length + digitsValue e.digits)
      (digitsValue e.digits) 0
    rw [wholes_eq_iff hlt hpos] at hiff
    simpa [and_comm] using hiff
  | some fs =>
    have hiff := scaled_eq_iff (digitsValue n.digits)
      (digitsValue n.digits * 10 ^ e.digits.length + digitsValue e.digits)
      (digitsValue e.digits + e.digits.length) (-(fs.length + e.digits.length))
    rw [decimals_eq_iff hlt] at hiff
    have hscale : ((digitsValue e.digits + e.digits.length : ℕ) : ℤ) +
        -(fs.length + e.digits.length) = digitsValue e.digits - fs.length := by
      push_cast
      ring
    rw [hscale] at hiff
    simpa using hiff

/-- A numeral is the same number without the mark of its exponent: the exponent, if there is one,
is zero and has no sign, and its digits stand behind a point or zeros. -/
def Survives (n : Numeral) : Prop :=
  ∀ e, n.exponent = some e → e.sign = none ∧ digitsValue e.digits = 0 ∧
    (n.fraction = none → digitsValue n.digits = 0)

/-- **When a numeral stands for the same number without the mark of its exponent.** -/
theorem denotes_unmarked_iff (n : Numeral) : Denotes n.unmarked n.value ↔ n.Survives := by
  unfold Survives
  cases he : n.exponent with
  | none =>
    have htext : n.unmarked = n.text := by
      rw [unmarked, text, he]
      rfl
    refine iff_of_true ⟨n, by rw [n.strip_unmarked, htext], rfl⟩ fun e h => ?_
    cases h
  | some e =>
    by_cases hsign : e.sign = none
    · have htext : n.unmarked = (n.absorb e.digits fun _ hc => e.isDigit_of_mem hc).text := by
        rw [text_absorb, unmarked, he, Option.map_some, Option.getD_some, Exponent.unmarked, hsign]
        rfl
      have habsorb : Denotes n.unmarked (n.absorb e.digits fun _ hc => e.isDigit_of_mem hc).value :=
        ⟨_, by rw [n.strip_unmarked, htext], rfl⟩
      have hvalue := n.value_absorb_eq_iff he hsign
      constructor
      · intro h e' he'
        obtain rfl := Option.some.inj he'
        exact ⟨hsign, hvalue.1 (h.unique habsorb)⟩
      · intro h
        rw [hvalue.2 (h e rfl).2]
        exact habsorb
    · refine iff_of_false (fun h => ?_) fun h => hsign (h e rfl).1
      exact hsign ((n.isNumeral_unmarked_iff).1 ((isNumeral_iff_denotes _).2 ⟨_, h⟩) e he)

end Numeral

end Intake.Number
