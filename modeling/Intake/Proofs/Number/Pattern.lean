import Intake.Number.Positional
import Intake.Proofs.Number.Whole
import Intake.Proofs.Rule.Texts
import Intake.Proofs.Text.Pattern
import Intake.Proofs.Text.Printable

/-!
# The pattern of numbers

What reads as a number is given here a second time, by a pattern.  Whole numbers and finite doubles
are written within this pattern, without padding and without an exponent.

* `pattern` and its parts.
* `mem_unpadded_iff`: the texts of the pattern without padding are the spellings of numbers.
* `isNumeral_iff_mem_pattern`: the texts of the pattern are those that read as a number.
* `decimal_mem_plain` and `floatText_mem_plain`: the texts of whole numbers and of doubles.
* `FloatParts.isFinite_ofFloat`: what counts as a finite double.
* `Rule.Checks.number_iff_mem_pattern`: the rule for numbers accepts the texts of the pattern, and
  so it accepts a number and the text of this number.
-/

namespace Intake

namespace Number

open scoped Computability
open Text.Pattern

namespace Pattern

/-- A sign or none. -/
def sign : Language Char :=
  optional (oneOf fun c => c == '+' || c == '-')

/-- One or more digits. -/
def digits : Language Char :=
  many (oneOf Char.isDigit)

/-- Digits, behind which there may be a point and more digits, or a point and digits. -/
def mantissa : Language Char :=
  digits * optional (char '.' * (oneOf Char.isDigit)∗) + char '.' * digits

/-- The mark of an exponent, a sign or none, and digits. -/
def exponent : Language Char :=
  oneOf (fun c => c == 'e' || c == 'E') * (sign * digits)

/-- A number without padding. -/
def unpadded : Language Char :=
  sign * (mantissa * optional exponent)

/-- Blanks and the controls from tab to carriage return. -/
def padding : Language Char :=
  (oneOf fun c => c == ' ' || ('\t' ≤ c && c ≤ '\r'))∗

/-- A number between padding. -/
def pattern : Language Char :=
  padding * unpadded * padding

variable {cs : List Char}

/-! ### Spellings -/

theorem mem_sign_iff : cs ∈ sign ↔ ∃ s, cs = signText s := by
  rw [sign, mem_optional, mem_oneOf]
  constructor
  · intro h
    obtain rfl | ⟨c, hc, rfl⟩ := h
    · exact ⟨none, rfl⟩
    · obtain hplus | hminus := Bool.or_eq_true_iff.1 hc
      · exact ⟨some false, by rw [beq_iff_eq.1 hplus]; rfl⟩
      · exact ⟨some true, by rw [beq_iff_eq.1 hminus]; rfl⟩
  · intro h
    obtain ⟨s, rfl⟩ := h
    cases s with
    | none => exact .inl rfl
    | some negative =>
      cases negative with
      | true => exact .inr ⟨'-', rfl, rfl⟩
      | false => exact .inr ⟨'+', rfl, rfl⟩

theorem mem_digits_iff : cs ∈ digits ↔ isDigits cs = true := by
  rw [digits, mem_many_oneOf, isDigits_iff]

theorem mem_mantissa_iff : cs ∈ mantissa ↔ ∃ (whole : List Char) (fraction : Option (List Char)),
    isDigits (whole ++ fraction.getD []) = true ∧ cs = whole ++ fractionText fraction := by
  rw [mantissa, Language.mem_add, Language.mem_mul]
  simp only [mem_optional, mem_char_mul, mem_kstar_oneOf, mem_digits_iff, isDigits_iff]
  constructor
  · intro h
    obtain ⟨whole, ⟨hne, hwhole⟩, behind, rfl | ⟨ds, hds, rfl⟩, rfl⟩ | ⟨ds, ⟨hne, hds⟩, rfl⟩ := h
    · exact ⟨whole, none, by simpa using ⟨hne, hwhole⟩, rfl⟩
    · refine ⟨whole, some ds, ⟨List.append_ne_nil_of_left_ne_nil hne _, fun c hc => ?_⟩, rfl⟩
      exact (List.mem_append.1 hc).elim (hwhole c) (hds c)
    · exact ⟨[], some ds, ⟨hne, hds⟩, rfl⟩
  · intro h
    obtain ⟨whole, fraction, ⟨hne, hdigits⟩, rfl⟩ := h
    have hwhole : ∀ c ∈ whole, c.isDigit = true := fun c hc =>
      hdigits c (List.mem_append_left _ hc)
    cases fraction with
    | none =>
      have hnil : whole ≠ [] := by simpa using hne
      exact .inl ⟨whole, ⟨hnil, hwhole⟩, [], .inl rfl, rfl⟩
    | some ds =>
      have hds : ∀ c ∈ ds, c.isDigit = true := fun c hc => hdigits c (List.mem_append_right _ hc)
      by_cases hnil : whole = []
      · subst hnil
        exact .inr ⟨ds, ⟨hne, hds⟩, rfl⟩
      · exact .inl ⟨whole, ⟨hnil, hwhole⟩, _, .inr ⟨ds, hds, rfl⟩, rfl⟩

theorem mem_optional_exponent_iff : cs ∈ optional exponent ↔ ∃ e, cs = exponentText e := by
  rw [mem_optional, exponent, mem_oneOf_mul]
  simp only [Language.mem_mul, mem_sign_iff, mem_digits_iff]
  constructor
  · intro h
    obtain rfl | ⟨c, rest, hc, ⟨front, ⟨s, rfl⟩, ds, hds, rfl⟩, rfl⟩ := h
    · exact ⟨none, rfl⟩
    · exact ⟨some ⟨c, s, ds, by simpa using hc, hds⟩, rfl⟩
  · intro h
    obtain ⟨e, rfl⟩ := h
    cases e with
    | none => exact .inl rfl
    | some e =>
      exact .inr ⟨e.mark, e.unmarked, by simpa using e.marks,
        ⟨signText e.sign, ⟨e.sign, rfl⟩, e.digits, e.proper, rfl⟩, rfl⟩

/-- **Without padding the pattern has exactly the spellings of numbers.** -/
theorem mem_unpadded_iff : cs ∈ unpadded ↔ ∃ n : Numeral, cs = n.text := by
  rw [unpadded, Language.mem_mul]
  simp only [Language.mem_mul, mem_sign_iff, mem_mantissa_iff, mem_optional_exponent_iff]
  constructor
  · intro h
    obtain ⟨front, ⟨s, rfl⟩, behind, ⟨m, ⟨whole, fraction, hproper, rfl⟩, back, ⟨e, rfl⟩, rfl⟩,
      rfl⟩ := h
    exact ⟨⟨s, whole, fraction, e, hproper⟩, rfl⟩
  · intro h
    obtain ⟨n, rfl⟩ := h
    exact ⟨_, ⟨n.sign, rfl⟩, _, ⟨n.mantissa, ⟨n.whole, n.fraction, n.proper, rfl⟩, _,
      ⟨n.exponent, rfl⟩, rfl⟩, rfl⟩

/-! ### Padding -/

theorem isPadding_iff (c : Char) : isPadding c = true ↔ c = ' ' ∨ '\t' ≤ c ∧ c ≤ '\r' := by
  unfold isPadding
  rw [List.contains_iff_mem]
  constructor
  · intro h
    have hall : [' ', '\t', '\n', '\r', '\x0B', '\x0C'].all
        (fun b => b == ' ' || ('\t' ≤ b && b ≤ '\r')) = true := by decide
    simpa using List.all_eq_true.1 hall c h
  · rintro (rfl | ⟨hfirst, hlast⟩)
    · exact List.mem_cons_self
    · have hlast : c.toNat ≤ 13 := UInt32.le_iff_toNat_le.1 hlast
      have hmem : c ∈ Text.charsFrom 9 5 :=
        Text.mem_charsFrom (UInt32.le_iff_toNat_le.1 hfirst) (by omega)
      have hall : (Text.charsFrom 9 5).all
          ([' ', '\t', '\n', '\r', '\x0B', '\x0C'].contains ·) = true := by decide
      exact List.contains_iff_mem.1 (List.all_eq_true.1 hall c hmem)

theorem mem_padding_iff : cs ∈ padding ↔ ∀ c ∈ cs, isPadding c = true := by
  simp only [padding, mem_kstar_oneOf, isPadding_iff, Bool.or_eq_true, Bool.and_eq_true,
    beq_iff_eq, decide_eq_true_eq]

/-- What stands in the spelling of a number. -/
theorem mem_text {n : Numeral} {c : Char} (h : c ∈ n.text) :
    c.isDigit = true ∨ c ∈ ['+', '-', '.', 'e', 'E'] := by
  have hsign : ∀ {s : Option Bool}, c ∈ signText s → c ∈ ['+', '-', '.', 'e', 'E'] := by
    intro s hs
    obtain rfl | rfl := eq_of_mem_signText hs
    · decide
    · decide
  simp only [Numeral.text, List.mem_append] at h
  obtain h | h | h := h
  · exact .inr (hsign h)
  · obtain hdigit | rfl := n.mem_mantissa h
    · exact .inl hdigit
    · exact .inr (by decide)
  · cases he : n.exponent with
    | none =>
      rw [he] at h
      cases h
    | some e =>
      rw [he] at h
      obtain rfl | hrest := List.mem_cons.1 h
      · obtain hmark | hmark := e.marks <;> simp [hmark]
      · exact (List.mem_append.1 hrest).elim (.inr ∘ hsign) (.inl ∘ e.isDigit_of_mem)

theorem isPadding_of_mem_text {n : Numeral} {c : Char} (h : c ∈ n.text) : isPadding c = false := by
  have hall : [' ', '\t', '\n', '\r', '\x0B', '\x0C'].all
      (fun b => !b.isDigit && !(['+', '-', '.', 'e', 'E'].contains b)) = true := by decide
  by_contra hpadding
  rw [Bool.not_eq_false] at hpadding
  have hother := List.all_eq_true.1 hall c (by simpa [isPadding] using hpadding)
  obtain hdigit | hmark := mem_text h
  · rw [hdigit] at hother
    cases hother
  · rw [List.contains_iff_mem.2 hmark, Bool.not_true, Bool.and_false] at hother
    cases hother

/-- **The pattern has exactly the texts that read as a number.** -/
theorem isNumeral_iff_mem_pattern (cs : List Char) : isNumeral cs = true ↔ cs ∈ pattern := by
  rw [isNumeral_iff, pattern, Language.mem_mul]
  simp only [Language.mem_mul, mem_padding_iff, mem_unpadded_iff]
  constructor
  · intro h
    obtain ⟨n, hn⟩ := h
    obtain ⟨front, back, hcs, hfront, hback⟩ := Text.exists_eq_append_strip isPadding cs
    rw [hn] at hcs
    exact ⟨_, ⟨front, hfront, n.text, ⟨n, rfl⟩, rfl⟩, back, hback, hcs.symm⟩
  · intro h
    obtain ⟨_, ⟨front, hfront, _, ⟨n, rfl⟩, rfl⟩, back, hback, rfl⟩ := h
    exact ⟨n, Text.strip_append_append hfront (fun c => isPadding_of_mem_text) hback⟩

/-! ### Numbers that are written -/

/-- A number with neither padding nor an exponent. -/
def plain : Language Char :=
  sign * mantissa

theorem mem_pattern_of_mem_plain (h : cs ∈ plain) : cs ∈ pattern := by
  obtain ⟨front, hfront, back, hback, rfl⟩ := Language.mem_mul.1 h
  have hunpadded : front ++ back ∈ unpadded := by
    refine Language.append_mem_mul hfront ?_
    rw [← List.append_nil back]
    exact Language.append_mem_mul hback (mem_optional.2 (.inl rfl))
  have hempty : [] ∈ padding := Language.nil_mem_kstar _
  rw [← List.append_nil (front ++ back), ← List.nil_append (front ++ back)]
  exact Language.append_mem_mul (Language.append_mem_mul hempty hunpadded) hempty

theorem mem_mantissa_of_isDigits (h : isDigits cs = true) : cs ∈ mantissa :=
  mem_mantissa_iff.2 ⟨cs, none, by simpa using h, (List.append_nil cs).symm⟩

theorem withSign_mem_plain (negative : Bool) (h : cs ∈ mantissa) :
    withSign negative cs ∈ plain := by
  cases negative with
  | true => exact Language.append_mem_mul (mem_sign_iff.2 ⟨some true, rfl⟩) h
  | false => exact Language.append_mem_mul (mem_sign_iff.2 ⟨none, rfl⟩) h

theorem isDigits_toDigits (n : Nat) : isDigits (Nat.toDigits 10 n) = true :=
  (isDigits_iff _).2 ⟨Nat.toDigits_ne_nil, fun _ =>
    Nat.isDigit_of_mem_toDigits (by decide) (by decide)⟩

theorem decimal_mem_plain (n : Int) : decimal n ∈ plain := by
  have hmantissa := mem_mantissa_of_isDigits (isDigits_toDigits n.natAbs)
  unfold decimal
  split
  · exact withSign_mem_plain true hmantissa
  · exact withSign_mem_plain false hmantissa

/-- Digits and a power of ten are written with zeros on one side, and a point that has digits on
either side. -/
theorem positional_mem_mantissa (digits : Nat) (exponent : Int) :
    positional digits exponent ∈ mantissa := by
  obtain ⟨hne, hdigits⟩ := (isDigits_iff _).1 (isDigits_toDigits digits)
  have hzero : ∀ count, ∀ c ∈ List.replicate count '0', c.isDigit = true := by
    intro count c hc
    rw [List.eq_of_mem_replicate hc]
    decide
  unfold positional
  simp only
  split
  · refine mem_mantissa_of_isDigits ((isDigits_iff _).2 ⟨?_, fun c hc => ?_⟩)
    · exact List.append_ne_nil_of_left_ne_nil hne _
    · exact (List.mem_append.1 hc).elim (hdigits c) (hzero _ c)
  · refine mem_mantissa_iff.2 ⟨_, some _, (isDigits_iff _).2 ⟨?_, fun c hc => ?_⟩, rfl⟩
    · rw [Option.getD_some, List.take_append_drop]
      exact List.append_ne_nil_of_right_ne_nil _ hne
    · rw [Option.getD_some, List.take_append_drop] at hc
      exact (List.mem_append.1 hc).elim (hzero _ c) (hdigits c)

theorem text_mem_plain {parts : FloatParts} (h : parts.isFinite = true) : parts.text ∈ plain := by
  cases parts with
  | nan => cases h
  | infinite negative => cases h
  | zero negative => exact withSign_mem_plain negative (mem_mantissa_of_isDigits (by decide))
  | finite negative size => exact withSign_mem_plain negative (positional_mem_mantissa _ _)

end Pattern

/-! ### Finite doubles -/

namespace FloatParts

open Float.Model (Format UnpackedFloat)

/-- The bits of a double are those of a finite one unless all bits of the exponent are set. -/
theorem isFinite_ofBits (bits : Nat) :
    (ofBits bits).isFinite = decide (bits / 0x10000000000000 % 0x800 ≠ 2047) := by
  unfold ofBits
  by_cases hexponent : bits / 0x10000000000000 % 0x800 = 2047
  · by_cases hsize : bits % 0x10000000000000 = 0 <;> simp [isFinite, hexponent, hsize]
  · by_cases hzero : bits / 0x10000000000000 % 0x800 = 0
    · by_cases hsize : bits % 0x10000000000000 = 0 <;> simp [isFinite, hzero, hsize]
    · simp [isFinite, hexponent, hzero]

theorem isFinite_unpack (bits : BitVec Format.binary64.numBits) :
    (UnpackedFloat.unpack Format.binary64 bits).isFinite =
      decide (bits.toNat / 0x10000000000000 % 0x800 ≠ 2047) := by
  have hvalue : (@UnpackedFloat.unpackExponent Format.binary64 bits).toNat =
      bits.toNat / 0x10000000000000 % 0x800 := by
    simp [UnpackedFloat.unpackExponent, Nat.shiftRight_eq_div_pow, Format.binary64]
  have hset : @UnpackedFloat.unpackExponent Format.binary64 bits = -1#_ ↔
      bits.toNat / 0x10000000000000 % 0x800 = 2047 := by
    rw [← hvalue, ← BitVec.toNat_inj]
    rfl
  unfold UnpackedFloat.unpack
  by_cases hexponent : bits.toNat / 0x10000000000000 % 0x800 = 2047
  · rw [if_pos (hset.2 hexponent), decide_eq_false (not_not_intro hexponent)]
    split <;> rfl
  · rw [if_neg (mt hset.1 hexponent), decide_eq_true hexponent]
    by_cases hclear : @UnpackedFloat.unpackExponent Format.binary64 bits = 0#_
    · rw [if_pos hclear]
      by_cases hsize : @UnpackedFloat.unpackMantissa Format.binary64 bits = 0#_
      · rw [dif_pos hsize]
        rfl
      · rw [dif_neg hsize]
        rfl
    · rw [if_neg hclear]
      rfl

/-- **A double has finite parts if and only if it is finite.** -/
theorem isFinite_ofFloat (x : Float) : (ofFloat x).isFinite = x.isFinite := by
  rw [ofFloat, isFinite_ofBits]
  exact (isFinite_unpack x.toBits.toBitVec).symm

end FloatParts

/-- **The text of a finite double has digits and at most a sign and a point.** -/
theorem floatText_mem_plain {x : Float} (h : x.isFinite = true) : floatText x ∈ Pattern.plain := by
  refine Pattern.text_mem_plain ?_
  rw [FloatParts.isFinite_ofFloat]
  exact h

end Number

/-! ### The rule for numbers -/

namespace Scalar

/-- Whether a scalar is a whole number or a finite double. -/
def isNumber : Scalar → Bool
  | int _ => true
  | float x => x.isFinite
  | _ => false

/-- A number has a text, with neither padding nor an exponent. -/
theorem exists_text_mem_plain {a : Scalar} (h : a.isNumber = true) :
    ∃ t, a.text? = some t ∧ t.toList ∈ Number.Pattern.plain := by
  cases a with
  | int n =>
    refine ⟨_, rfl, ?_⟩
    rw [String.toList_ofList]
    exact Number.Pattern.decimal_mem_plain n.toInt
  | float x =>
    refine ⟨_, rfl, ?_⟩
    rw [String.toList_ofList]
    exact Number.floatText_mem_plain h
  | null => cases h
  | bool b => cases h
  | text t => cases h

end Scalar

namespace Rule.Checks

/-- The rule for numbers accepts a number that is there. -/
theorem number_of_isNumber {s : Subject} {a : Scalar}
    (h : s.record.get? s.field = some (.scalar a)) (ha : a.isNumber = true) (params : List Param) :
    Checks.number s params = true := by
  unfold Checks.number Checks.ifPresent
  cases a with
  | int n =>
    have hvalue : s.value? = some (.scalar (.int n)) := Record.present?_eq_some h rfl
    rw [hvalue]
    rfl
  | float x =>
    have hvalue : s.value? = some (.scalar (.float x)) := Record.present?_eq_some h rfl
    rw [hvalue]
    show (Number.FloatParts.ofFloat x).isFinite = true
    rw [Number.FloatParts.isFinite_ofFloat]
    exact ha
  | null => cases ha
  | bool b => cases ha
  | text t => cases ha

/-- **The rule for numbers accepts the texts of the pattern and no others.**  Whole numbers and
finite doubles are accepted, and are still accepted when their text stands in their place. -/
theorem number_iff_mem_pattern :
    (∀ (s : Subject) (t : String) (params : List Param),
      s.record.get? s.field = some (.text t) →
        (Checks.number s params = true ↔ t.toList ∈ Number.Pattern.pattern)) ∧
    ∀ a : Scalar, a.isNumber = true →
      ∃ t, a.text? = some t ∧ t.toList ∈ Number.Pattern.plain ∧
        ∀ (s : Subject) (params : List Param),
          s.record.get? s.field = some (.scalar a) ∨ s.record.get? s.field = some (.text t) →
            Checks.number s params = true := by
  have hpattern : ∀ (s : Subject) (t : String) (params : List Param),
      s.record.get? s.field = some (.text t) →
        (Checks.number s params = true ↔ t.toList ∈ Number.Pattern.pattern) := by
    intro s t params h
    rw [number_iff_of_text h, Number.Pattern.isNumeral_iff_mem_pattern]
  refine ⟨hpattern, fun a ha => ?_⟩
  obtain ⟨t, ht, hplain⟩ := Scalar.exists_text_mem_plain ha
  refine ⟨t, ht, hplain, fun s params h => ?_⟩
  obtain h | h := h
  · exact number_of_isNumber h ha params
  · exact (hpattern s t params h).2 (Number.Pattern.mem_pattern_of_mem_plain hplain)

/-- A padded text with an exponent is a number, one with a second sign is none, and `1e21` is
accepted when it has been written out. -/
theorem number_iff_mem_pattern_of_padded :
    let today : Date := ⟨2024, 5, 1, by decide⟩
    let r : Record := Dict.ofList
      [("a", .text "\t-1.5e3 "), ("b", .text "--1"), ("c", .text "1000000000000000000000")]
    "\t-1.5e3 ".toList ∈ Number.Pattern.pattern ∧ "--1".toList ∉ Number.Pattern.pattern ∧
      (Scalar.float 1e21).text? = some "1000000000000000000000" ∧
      Checks.number ⟨r, "c", today⟩ [] = true := by
  intro today r
  have hpadded := number_iff_mem_pattern.1 ⟨r, "a", today⟩ "\t-1.5e3 " [] rfl
  have hsigns := number_iff_mem_pattern.1 ⟨r, "b", today⟩ "--1" [] rfl
  obtain ⟨t, ht, -, hwritten⟩ := number_iff_mem_pattern.2 (.float 1e21) rfl
  have htext : (Scalar.float 1e21).text? = some "1000000000000000000000" := by decide +kernel
  obtain rfl := Option.some.inj (ht.symm.trans htext)
  exact ⟨hpadded.1 rfl, mt hsigns.2 (by decide), htext, hwritten ⟨r, "c", today⟩ [] (.inr rfl)⟩

end Rule.Checks

end Intake
