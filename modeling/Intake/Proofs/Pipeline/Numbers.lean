import Intake.Proofs.Number.Unmarked
import Intake.Proofs.Pipeline.OneField

/-!
# Numbers that are cleaned and examined

The tag for decimal numbers leaves digits, signs and the point.  The rule for numbers also accepts
exponents, whose mark is not among them.

* `Pipeline.run_keeps_number_iff`: a field with the rule string `float|number` keeps its number
  and accepts it if and only if there is no exponent, up to some that are zero.
* `Pipeline.run_changes_number`: a number with an exponent becomes another number, or none.
-/

namespace Intake

open Rule Message Cleaning Number

theorem combines_number : Combines "float|number" .float ⟨"number", []⟩ :=
  .of_tokens "number" "number" rfl rfl rfl rfl rfl

/-- **Cleaning keeps the numbers without exponents.**  Under the tag for decimal numbers a text
that reads as a number loses its padding and the mark of its exponent.  A field with the rule
string `float|number` is accepted unless the exponent has a sign, and the cleaned text stands for
the same number if and only if there is no exponent, or one without sign that is zero and stands
behind a point or zeros. -/
theorem Pipeline.run_keeps_number_iff [PhoneDirectory] (policy : Policy) (strict : Bool)
    (today : Date) (r : Record) (w : Wording) (field t : String)
    (htext : r.get? field = some (.text t))
    (haccepted : Checks.number ⟨r, field, today⟩ [] = true) :
    ∃ n : Numeral, Text.strip isPadding t.toList = n.text ∧
      (∃ o, Pipeline.run ⟨policy, ⟨.standard, strict⟩⟩ today r
        (Dict.ofList [(field, "float|number")]) w = .ok o) ∧
      ∀ fields o, fields.get? field = some "float|number" →
        Pipeline.run ⟨policy, ⟨.standard, strict⟩⟩ today r fields w = .ok o →
        ∃ cleaned, o.record.get? field = some (.text cleaned) ∧ cleaned.toList = n.unmarked ∧
          (o.failures.get? field = none ↔ ∀ e, n.exponent = some e → e.sign = none) ∧
          ((o.failures.get? field = none ∧
            ∃ q, Denotes t.toList q ∧ Denotes cleaned.toList q) ↔ n.Survives) := by
  obtain ⟨n, hn⟩ := (isNumeral_iff _).1 ((Checks.number_iff_of_text htext []).1 haccepted)
  have halphabet : Tag.float.alphabet? = some .decimal := rfl
  have hrule : Registry.standard.get? "number" =
      some ⟨Checks.number, "The %s must be numeric", 0⟩ := by
    rw [Registry.get?_standard]
    rfl
  refine ⟨n, hn, combines_number.exists_run hrule (Nat.zero_le _) field today r w, ?_⟩
  intro fields o hfields hrun
  have hkept : (Text.Alphabet.decimal.keep t).toList = n.unmarked := by
    rw [Text.Alphabet.toList_keep, Numeral.filter_of_strip hn]
  have hrecord : o.record.get? field = some (.text (Text.Alphabet.decimal.keep t)) := by
    rw [combines_number.get?_record_of_text rfl hrun hfields htext,
      policy.finishText_cleanText halphabet]
  have hpasses : o.failures.get? field = none ↔ isNumeral n.unmarked = true := by
    rw [combines_number.get?_failures_eq_none_iff hrule hrun hfields,
      Checks.number_iff_of_text hrecord, hkept]
  refine ⟨_, hrecord, hkept, by rw [hpasses, n.isNumeral_unmarked_iff], ?_⟩
  rw [hpasses, hkept, ← n.denotes_unmarked_iff]
  constructor
  · intro h
    obtain ⟨-, q, hq, hq'⟩ := h
    rwa [hq.unique ⟨n, hn, rfl⟩] at hq'
  · intro h
    exact ⟨(isNumeral_iff_denotes _).2 ⟨_, h⟩, n.value, ⟨n, hn, rfl⟩, h⟩

open TwoCountries in
/-- A padded number with a fraction is kept and accepted. -/
theorem Pipeline.run_keeps_number_iff_of_padded :
    let r : Record := Dict.ofList [("n", .text " -7.50 ")]
    Checks.number ⟨r, "n", ⟨2024, 6, 15, by decide⟩⟩ [] = true ∧
    ∃ o cleaned, Pipeline.standard.run ⟨2024, 6, 15, by decide⟩ r
        (Dict.ofList [("n", "float|number")]) .empty = .ok o ∧
      o.record.get? "n" = some (.text cleaned) ∧ o.failures.get? "n" = none ∧
      ∃ q, Denotes " -7.50 ".toList q ∧ Denotes cleaned.toList q := by
  intro r
  have haccepted : Checks.number ⟨r, "n", ⟨2024, 6, 15, by decide⟩⟩ [] = true := rfl
  obtain ⟨n, hn, ⟨o, hrun⟩, hall⟩ := run_keeps_number_iff {} false ⟨2024, 6, 15, by decide⟩ r
    .empty "n" " -7.50 " rfl haccepted
  obtain ⟨cleaned, hrecord, -, -, hkeeps⟩ := hall _ o rfl hrun
  let spelling : Numeral := ⟨some true, ['7'], some ['5', '0'], none, by decide⟩
  have hspelling : Text.strip isPadding " -7.50 ".toList = spelling.text := rfl
  obtain rfl : n = spelling := Numeral.text_injective (hn.symm.trans hspelling)
  have hsurvives : spelling.Survives := by
    intro e he
    cases he
  obtain ⟨hpasses, hsame⟩ := hkeeps.2 hsurvives
  exact ⟨haccepted, o, cleaned, hrun, hrecord, hpasses, hsame⟩

open TwoCountries in
/-- A number with an exponent becomes another number, which is accepted, and one whose exponent has
a sign is no number any more. -/
theorem Pipeline.run_changes_number :
    let r : Record := Dict.ofList [("large", .text "1e5"), ("small", .text "1e-5")]
    Checks.number ⟨r, "large", ⟨2024, 6, 15, by decide⟩⟩ [] = true ∧
    Checks.number ⟨r, "small", ⟨2024, 6, 15, by decide⟩⟩ [] = true ∧
    (Pipeline.standard.run ⟨2024, 6, 15, by decide⟩ r
        (Dict.ofList [("large", "float|number"), ("small", "float|number")]) .empty).toOption.map
      (fun o => ((o.record.get? "large").bind Value.text?, (o.record.get? "small").bind Value.text?,
        o.failures.entries)) =
      some (some "15", some "1-5", [("small", "The small must be numeric")]) ∧
    ¬ ∃ q, Denotes "1e5".toList q ∧ Denotes "15".toList q := by
  refine ⟨rfl, rfl, rfl, ?_⟩
  intro h
  obtain ⟨q, hq, hq'⟩ := h
  let spelling : Numeral := ⟨none, ['1'], none, some ⟨'e', none, ['5'], .inl rfl, by decide⟩,
    by decide⟩
  have hvalue : Denotes "1e5".toList spelling.value := ⟨spelling, rfl, rfl⟩
  have htext : "15".toList = spelling.unmarked := rfl
  rw [hq.unique hvalue, htext, Numeral.denotes_unmarked_iff] at hq'
  exact absurd (hq' _ rfl).2.1 (by decide)

end Intake
