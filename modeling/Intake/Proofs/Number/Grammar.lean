import Mathlib.Algebra.Order.Field.Power
import Mathlib.Data.Rat.Cast.Order
import Mathlib.Tactic.Ring
import Intake.Number.Numeral
import Intake.Proofs.Text.Stripping

/-!
# The grammar of numbers

A number is spelled by a sign, a run of digits with a point in it or none, and an exponent.  The
spelling is kept as data here, so that a text can be taken apart and its number computed.

* `Numeral` is such a spelling, `Numeral.text` the text and `Numeral.value` the number.
* `isNumeral_iff`: the texts that read as a number are the padded spellings.
* `Numeral.text_injective`: a text is spelled in one way only.
* `Denotes`: a text stands for a number, and by `Denotes.unique` for one only.
-/

namespace Intake.Number

/-! ### Digits -/

theorem isDigits_iff (cs : List Char) :
    isDigits cs = true ↔ cs ≠ [] ∧ ∀ c ∈ cs, c.isDigit = true := by
  unfold isDigits
  simp

theorem digitsValue_append (front back : List Char) :
    digitsValue (front ++ back) = digitsValue front * 10 ^ back.length + digitsValue back := by
  unfold digitsValue
  rw [Nat.ofDigitChars_append, Nat.ofDigitChars_eq_ofDigitChars_zero, Nat.mul_comm]

theorem digitsValue_lt {digits : List Char} (h : ∀ c ∈ digits, c.isDigit = true) :
    digitsValue digits < 10 ^ digits.length := by
  induction digits with
  | nil => decide
  | cons c rest ih =>
    have hc : digitsValue [c] ≤ 9 := by
      have hdigit := h c List.mem_cons_self
      simp only [Char.isDigit, Bool.and_eq_true, decide_eq_true_eq, ge_iff_le,
        UInt32.le_iff_toNat_le] at hdigit
      show 10 * 0 + (c.toNat - 48) ≤ 9
      have hupper : c.toNat ≤ 57 := hdigit.2
      omega
    have hrest := ih fun d hd => h d (List.mem_cons_of_mem _ hd)
    have hmul : digitsValue [c] * 10 ^ rest.length ≤ 9 * 10 ^ rest.length :=
      Nat.mul_le_mul_right _ hc
    rw [← List.singleton_append, digitsValue_append, List.length_append, List.length_singleton,
      Nat.add_comm 1, Nat.pow_succ]
    omega

/-- A text does not go on with a digit. -/
def EndsDigits (rest : List Char) : Prop :=
  ∀ c, rest.head? = some c → c.isDigit = false

theorem endsDigits_cons {c : Char} (h : c.isDigit = false) (rest : List Char) :
    EndsDigits (c :: rest) := by
  intro d hd
  rwa [← Option.some.inj hd]

/-- The digits in front of a text are found where they end. -/
theorem span_digits {digits rest : List Char} (hdigits : ∀ c ∈ digits, c.isDigit = true)
    (hrest : EndsDigits rest) :
    (digits ++ rest).takeWhile Char.isDigit = digits ∧
      (digits ++ rest).dropWhile Char.isDigit = rest := by
  have hstop : rest.takeWhile Char.isDigit = [] ∧ rest.dropWhile Char.isDigit = rest := by
    cases rest with
    | nil => exact ⟨rfl, rfl⟩
    | cons c rest =>
      have hc := hrest c rfl
      exact ⟨List.takeWhile_cons_of_neg (by simp [hc]), List.dropWhile_cons_of_neg (by simp [hc])⟩
  rw [List.takeWhile_append_of_pos hdigits, List.dropWhile_append_of_pos hdigits, hstop.1, hstop.2,
    List.append_nil]
  exact ⟨rfl, rfl⟩

theorem isDigit_of_mem_takeWhile {cs : List Char} {c : Char}
    (h : c ∈ cs.takeWhile Char.isDigit) : c.isDigit = true := by
  have hall := List.all_takeWhile (p := Char.isDigit) (l := cs)
  exact List.all_eq_true.1 hall c h

/-! ### Signs -/

/-- How a sign is written; `true` stands for a minus sign, and there may be none. -/
def signText : Option Bool → List Char
  | none => []
  | some true => ['-']
  | some false => ['+']

theorem signText_ne_nil (negative : Bool) : signText (some negative) ≠ [] := by
  cases negative <;> exact List.cons_ne_nil _ _

theorem eq_of_mem_signText {sign : Option Bool} {c : Char} (h : c ∈ signText sign) :
    c = '-' ∨ c = '+' := by
  cases sign with
  | none => cases h
  | some negative =>
    cases negative with
    | true => exact .inl (List.mem_singleton.1 h)
    | false => exact .inr (List.mem_singleton.1 h)

theorem signText_injective {sign sign' : Option Bool} (h : signText sign = signText sign') :
    sign = sign' := by
  cases sign with
  | none =>
    cases sign' with
    | none => rfl
    | some negative => exact absurd h.symm (signText_ne_nil negative)
  | some negative =>
    cases sign' with
    | none => exact absurd h (signText_ne_nil negative)
    | some negative' => cases negative <;> cases negative' <;> first | rfl | cases h

/-- A text does not begin with a sign. -/
def Signless (cs : List Char) : Prop :=
  ∀ c, cs.head? = some c → c ≠ '+' ∧ c ≠ '-'

theorem splitSign_of_signless {cs : List Char} (h : Signless cs) : splitSign cs = (false, cs) := by
  unfold splitSign
  split
  next rest => exact absurd rfl (h '-' rfl).2
  next rest => exact absurd rfl (h '+' rfl).1
  next => rfl

theorem splitSign_signText (sign : Option Bool) {rest : List Char} (h : Signless rest) :
    splitSign (signText sign ++ rest) = (sign == some true, rest) := by
  cases sign with
  | none => exact splitSign_of_signless h
  | some negative => cases negative <;> rfl

/-- Every text is a sign, which may be none, and a rest. -/
theorem exists_eq_signText (cs : List Char) :
    ∃ sign, cs = signText sign ++ (splitSign cs).2 := by
  unfold splitSign
  split
  next rest => exact ⟨some true, rfl⟩
  next rest => exact ⟨some false, rfl⟩
  next => exact ⟨none, rfl⟩

theorem signText_append_inj {sign sign' : Option Bool} {rest rest' : List Char}
    (hrest : Signless rest) (hrest' : Signless rest')
    (h : signText sign ++ rest = signText sign' ++ rest') : sign = sign' ∧ rest = rest' := by
  have hsplit := congrArg splitSign h
  rw [splitSign_signText sign hrest, splitSign_signText sign' hrest'] at hsplit
  obtain rfl : rest = rest' := (Prod.mk.inj hsplit).2
  exact ⟨signText_injective (List.append_cancel_right h), rfl⟩

/-! ### Exponents -/

/-- The spelling of an exponent. -/
@[ext]
structure Exponent where
  mark : Char
  sign : Option Bool
  digits : List Char
  marks : mark = 'e' ∨ mark = 'E'
  proper : isDigits digits = true

namespace Exponent

/-- What stands behind the mark. -/
def unmarked (e : Exponent) : List Char :=
  signText e.sign ++ e.digits

def text (e : Exponent) : List Char :=
  e.mark :: e.unmarked

def value (e : Exponent) : Int :=
  signed (e.sign == some true) (digitsValue e.digits)

theorem isDigit_of_mem (e : Exponent) {c : Char} (h : c ∈ e.digits) : c.isDigit = true :=
  ((isDigits_iff _).1 e.proper).2 c h

end Exponent

/-- The text of an exponent that may be missing. -/
def exponentText (e : Option Exponent) : List Char :=
  (e.map Exponent.text).getD []

theorem signless_of_forall_isDigit {cs : List Char} (h : ∀ c ∈ cs, c.isDigit = true) :
    Signless cs := by
  intro c hc
  have hdigit := h c (List.mem_of_head? hc)
  constructor
  · rintro rfl
    cases hdigit
  · rintro rfl
    cases hdigit

theorem isExponent_iff (cs : List Char) :
    isExponent cs = true ↔ ∃ e : Option Exponent, cs = exponentText e := by
  constructor
  · intro h
    cases cs with
    | nil => exact ⟨none, rfl⟩
    | cons c rest =>
      obtain ⟨hmark, hdigits⟩ := Bool.and_eq_true_iff.1 h
      obtain ⟨sign, hrest⟩ := exists_eq_signText rest
      exact ⟨some ⟨c, sign, (splitSign rest).2, by simpa using hmark, hdigits⟩,
        congrArg (List.cons c) hrest⟩
  · intro h
    obtain ⟨e, rfl⟩ := h
    cases e with
    | none => rfl
    | some e =>
      have hmark : (e.mark == 'e' || e.mark == 'E') = true := by simpa using e.marks
      have hsplit := splitSign_signText e.sign
        (signless_of_forall_isDigit fun c hc => e.isDigit_of_mem hc)
      show ((e.mark == 'e' || e.mark == 'E') &&
        isDigits (splitSign (signText e.sign ++ e.digits)).2) = true
      rw [hmark, hsplit]
      exact e.proper

theorem endsDigits_exponentText (e : Option Exponent) : EndsDigits (exponentText e) := by
  cases e with
  | none =>
    intro c hc
    cases hc
  | some e =>
    refine endsDigits_cons ?_ _
    obtain h | h := e.marks
    · rw [h]
      decide
    · rw [h]
      decide

theorem exponentText_ne_point (e : Option Exponent) (rest : List Char) :
    exponentText e ≠ '.' :: rest := by
  intro h
  cases e with
  | none => cases h
  | some e =>
    have hmark : e.mark = '.' := (List.cons.inj h).1
    obtain hm | hm := e.marks <;> simp [hm] at hmark

/-! ### Numerals -/

/-- The text of a fraction that may be missing; it may be empty behind its point. -/
def fractionText : Option (List Char) → List Char
  | none => []
  | some digits => '.' :: digits

/-- The spelling of a number: digits, behind which there may be a point and more digits, and an
exponent that may be missing.  There is a digit in front of the point or behind it. -/
@[ext]
structure Numeral where
  sign : Option Bool
  whole : List Char
  fraction : Option (List Char)
  exponent : Option Exponent
  proper : isDigits (whole ++ fraction.getD []) = true

namespace Numeral

/-- The digits in front of the point and behind it. -/
def digits (n : Numeral) : List Char :=
  n.whole ++ n.fraction.getD []

/-- The text without its exponent and without its sign. -/
def mantissa (n : Numeral) : List Char :=
  n.whole ++ fractionText n.fraction

def text (n : Numeral) : List Char :=
  signText n.sign ++ (n.mantissa ++ exponentText n.exponent)

/-- The power of ten that the digits count in. -/
def scale (n : Numeral) : Int :=
  (n.exponent.map Exponent.value).getD 0 - (n.fraction.getD []).length

/-- The number that is spelled. -/
def value (n : Numeral) : ℚ :=
  signed (n.sign == some true) (digitsValue n.digits) * 10 ^ n.scale

theorem isDigit_of_mem (n : Numeral) {c : Char} (h : c ∈ n.digits) : c.isDigit = true :=
  ((isDigits_iff _).1 n.proper).2 c h

theorem isDigit_of_mem_whole (n : Numeral) {c : Char} (h : c ∈ n.whole) : c.isDigit = true :=
  n.isDigit_of_mem (List.mem_append_left _ h)

theorem isDigit_of_mem_fraction (n : Numeral) {ds : List Char} (hds : n.fraction = some ds)
    {c : Char} (h : c ∈ ds) : c.isDigit = true := by
  refine n.isDigit_of_mem (List.mem_append_right _ ?_)
  rw [hds]
  exact h

/-- Only digits and the point stand in a mantissa. -/
theorem mem_mantissa (n : Numeral) {c : Char} (h : c ∈ n.mantissa) :
    c.isDigit = true ∨ c = '.' := by
  obtain h | h := List.mem_append.1 h
  · exact .inl (n.isDigit_of_mem_whole h)
  · cases hfraction : n.fraction with
    | none =>
      rw [hfraction] at h
      cases h
    | some ds =>
      rw [hfraction] at h
      obtain rfl | h := List.mem_cons.1 h
      · exact .inr rfl
      · exact .inl (n.isDigit_of_mem_fraction hfraction h)

theorem mantissa_ne_nil (n : Numeral) : n.mantissa ≠ [] := by
  intro hnil
  obtain ⟨hwhole, hfraction⟩ := List.append_eq_nil_iff.1 hnil
  refine ((isDigits_iff _).1 n.proper).1 ?_
  cases hds : n.fraction with
  | none => simp [hwhole]
  | some ds =>
    rw [hds] at hfraction
    cases hfraction

theorem signless_mantissa_append (n : Numeral) (rest : List Char) :
    Signless (n.mantissa ++ rest) := by
  intro c hc
  rw [List.head?_append_of_ne_nil _ n.mantissa_ne_nil] at hc
  obtain h | rfl := n.mem_mantissa (List.mem_of_head? hc)
  · constructor
    · rintro rfl
      cases h
    · rintro rfl
      cases h
  · decide

end Numeral

/-- The digits, the point and the exponent are found in the text of a numeral. -/
theorem isMagnitude_mantissa (n : Numeral) :
    isMagnitude (n.mantissa ++ exponentText n.exponent) = true := by
  have hexponent : isExponent (exponentText n.exponent) = true := (isExponent_iff _).2 ⟨_, rfl⟩
  have hproper := (isDigits_iff _).1 n.proper
  unfold isMagnitude Numeral.mantissa
  rw [List.append_assoc]
  cases hfraction : n.fraction with
  | none =>
    have hspan := span_digits (fun c hc => n.isDigit_of_mem_whole hc)
      (endsDigits_exponentText n.exponent)
    have hwhole : n.whole ≠ [] := by simpa [hfraction] using hproper.1
    simp only [fractionText, List.nil_append, hspan.1, hspan.2]
    split
    next rest hpoint => exact absurd hpoint (exponentText_ne_point _ _)
    next => simpa [hwhole] using hexponent
  | some ds =>
    have hpoint : EndsDigits ('.' :: (ds ++ exponentText n.exponent)) :=
      endsDigits_cons (by decide) _
    have hspan := span_digits (fun c hc => n.isDigit_of_mem_whole hc) hpoint
    have hspan' := span_digits (fun c hc => n.isDigit_of_mem_fraction hfraction hc)
      (endsDigits_exponentText n.exponent)
    have hdigits : n.whole ≠ [] ∨ ds ≠ [] := by
      rw [hfraction] at hproper
      by_contra hnone
      simp only [not_or, not_not] at hnone
      exact hproper.1 (by simp [hnone])
    simp only [fractionText, List.cons_append, hspan.1, hspan.2, hspan'.1, hspan'.2, hexponent,
      Bool.and_true, Bool.or_eq_true, Bool.not_eq_true', List.isEmpty_eq_false_iff]
    exact hdigits

/-- Digits with a point and an exponent are a mantissa and an exponent. -/
theorem exists_of_isMagnitude {cs : List Char} (sign : Option Bool) (h : isMagnitude cs = true) :
    ∃ n : Numeral, n.sign = sign ∧ cs = n.mantissa ++ exponentText n.exponent := by
  have hspan : cs.takeWhile Char.isDigit ++ cs.dropWhile Char.isDigit = cs :=
    List.takeWhile_append_dropWhile
  unfold isMagnitude at h
  simp only at h
  split at h
  next rest hrest =>
    rw [Bool.and_eq_true, Bool.or_eq_true, Bool.not_eq_true', Bool.not_eq_true',
      List.isEmpty_eq_false_iff, List.isEmpty_eq_false_iff] at h
    obtain ⟨hdigits, hexponent⟩ := h
    obtain ⟨e, he⟩ := (isExponent_iff _).1 hexponent
    have hproper : isDigits (cs.takeWhile Char.isDigit ++ rest.takeWhile Char.isDigit) = true := by
      refine (isDigits_iff _).2 ⟨?_, fun c hc => ?_⟩
      · rw [Ne, List.append_eq_nil_iff]
        exact fun hnil => hdigits.elim (· hnil.1) (· hnil.2)
      · exact (List.mem_append.1 hc).elim isDigit_of_mem_takeWhile isDigit_of_mem_takeWhile
    refine ⟨⟨sign, cs.takeWhile Char.isDigit, some (rest.takeWhile Char.isDigit), e, hproper⟩, rfl,
      ?_⟩
    show cs = (cs.takeWhile Char.isDigit ++ '.' :: rest.takeWhile Char.isDigit) ++ exponentText e
    rw [← he, List.append_assoc, List.cons_append, List.takeWhile_append_dropWhile, ← hrest, hspan]
  next =>
    rw [Bool.and_eq_true, Bool.not_eq_true', List.isEmpty_eq_false_iff] at h
    obtain ⟨hdigits, hexponent⟩ := h
    obtain ⟨e, he⟩ := (isExponent_iff _).1 hexponent
    have hproper : isDigits (cs.takeWhile Char.isDigit ++ []) = true := by
      rw [List.append_nil]
      exact (isDigits_iff _).2 ⟨hdigits, fun c hc => isDigit_of_mem_takeWhile hc⟩
    refine ⟨⟨sign, cs.takeWhile Char.isDigit, none, e, hproper⟩, rfl, ?_⟩
    show cs = (cs.takeWhile Char.isDigit ++ []) ++ exponentText e
    rw [← he, List.append_nil, hspan]

/-- **The texts that read as a number are the spellings of numbers between padding.** -/
theorem isNumeral_iff (cs : List Char) :
    isNumeral cs = true ↔ ∃ n : Numeral, Text.strip isPadding cs = n.text := by
  unfold isNumeral
  constructor
  · intro h
    obtain ⟨sign, hsign⟩ := exists_eq_signText (Text.strip isPadding cs)
    obtain ⟨n, rfl, hrest⟩ := exists_of_isMagnitude sign h
    refine ⟨n, hsign.trans ?_⟩
    rw [hrest]
    rfl
  · intro h
    obtain ⟨n, hn⟩ := h
    rw [hn, Numeral.text, splitSign_signText n.sign (n.signless_mantissa_append _)]
    exact isMagnitude_mantissa n

/-! ### One spelling for a text -/

theorem exponentText_injective {e e' : Option Exponent} (h : exponentText e = exponentText e') :
    e = e' := by
  cases e with
  | none =>
    cases e' with
    | none => rfl
    | some e' => cases h
  | some e =>
    cases e' with
    | none => cases h
    | some e' =>
      obtain ⟨hmark, hunmarked⟩ := List.cons.inj h
      obtain ⟨hsign, hdigits⟩ := signText_append_inj
        (signless_of_forall_isDigit fun c hc => e.isDigit_of_mem hc)
        (signless_of_forall_isDigit fun c hc => e'.isDigit_of_mem hc) hunmarked
      exact congrArg some (Exponent.ext hmark hsign hdigits)

/-- Digits in front of texts that do not go on with a digit. -/
theorem digits_append_inj {ds ds' rest rest' : List Char} (hds : ∀ c ∈ ds, c.isDigit = true)
    (hds' : ∀ c ∈ ds', c.isDigit = true) (hrest : EndsDigits rest) (hrest' : EndsDigits rest')
    (h : ds ++ rest = ds' ++ rest') : ds = ds' ∧ rest = rest' := by
  have hspan := span_digits hds hrest
  rw [h] at hspan
  have hspan' := span_digits hds' hrest'
  exact ⟨hspan.1.symm.trans hspan'.1, hspan.2.symm.trans hspan'.2⟩

theorem endsDigits_fractionText_append (fraction : Option (List Char)) (e : Option Exponent) :
    EndsDigits (fractionText fraction ++ exponentText e) := by
  cases fraction with
  | none => exact endsDigits_exponentText e
  | some ds => exact endsDigits_cons (by decide) _

/-- **A text is spelled in one way only.** -/
theorem Numeral.text_injective {n m : Numeral} (h : n.text = m.text) : n = m := by
  obtain ⟨hsign, hrest⟩ := signText_append_inj (n.signless_mantissa_append _)
    (m.signless_mantissa_append _) h
  rw [mantissa, mantissa, List.append_assoc, List.append_assoc] at hrest
  obtain ⟨hwhole, hrest⟩ := digits_append_inj (fun c hc => n.isDigit_of_mem_whole hc)
    (fun c hc => m.isDigit_of_mem_whole hc) (endsDigits_fractionText_append _ _)
    (endsDigits_fractionText_append _ _) hrest
  cases hn : n.fraction with
  | none =>
    cases hm : m.fraction with
    | none =>
      rw [hn, hm] at hrest
      exact Numeral.ext hsign hwhole (hn.trans hm.symm) (exponentText_injective hrest)
    | some ds =>
      rw [hn, hm] at hrest
      exact absurd hrest (exponentText_ne_point _ _)
  | some ds =>
    cases hm : m.fraction with
    | none =>
      rw [hn, hm] at hrest
      exact absurd hrest.symm (exponentText_ne_point _ _)
    | some ds' =>
      rw [hn, hm] at hrest
      obtain ⟨hds, hexponent⟩ := digits_append_inj (fun c hc => n.isDigit_of_mem_fraction hn hc)
        (fun c hc => m.isDigit_of_mem_fraction hm hc) (endsDigits_exponentText _)
        (endsDigits_exponentText _) (List.cons.inj hrest).2
      exact Numeral.ext hsign hwhole (by rw [hn, hm, hds]) (exponentText_injective hexponent)

/-! ### The number that a text stands for -/

/-- A text stands for a number. -/
def Denotes (cs : List Char) (q : ℚ) : Prop :=
  ∃ n : Numeral, Text.strip isPadding cs = n.text ∧ n.value = q

/-- **A text stands for one number only.** -/
theorem Denotes.unique {cs : List Char} {p q : ℚ} (hp : Denotes cs p) (hq : Denotes cs q) :
    p = q := by
  obtain ⟨n, hn, rfl⟩ := hp
  obtain ⟨m, hm, rfl⟩ := hq
  rw [Numeral.text_injective (hn.symm.trans hm)]

theorem isNumeral_iff_denotes (cs : List Char) : isNumeral cs = true ↔ ∃ q, Denotes cs q := by
  rw [isNumeral_iff]
  constructor
  · intro h
    obtain ⟨n, hn⟩ := h
    exact ⟨n.value, n, hn, rfl⟩
  · intro h
    obtain ⟨q, n, hn, -⟩ := h
    exact ⟨n, hn⟩

end Intake.Number
