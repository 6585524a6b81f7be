import Intake.Proofs.Pipeline.OneField
import Intake.Proofs.Text.Outside

/-!
# Passwords that are cleaned and examined

A password under the rule string `string|secure` is cleaned of markup before it is examined.  The
rule then looks at the characters outside tags, with references in place of the quotes.  A
reference has five characters, among them digits and marks but no letters.

* `Fortified`: what the characters outside tags have to be for this.
* `isStrong_flatMap_written_iff`: the rule on the written text in terms of these characters.
* `Pipeline.run_accepts_password_iff`: when a field with this rule string is accepted, and what
  that says of the text that was submitted.
* `Pipeline.accepts_weak_passwords`: quotes and tags help passwords that are not strong.
-/

namespace Intake

open Rule Message Cleaning Text.Markup

/-! ### Passwords as they are written -/

/-- The characters that are written as references. -/
def isQuote (c : Char) : Bool :=
  c == '\'' || c == '\"'

/-- The characters that count as special in a password. -/
def isSpecial (c : Char) : Bool :=
  !(c.isAlphanum || c == '_')

/-- Characters that make up a strong password when quotes are written as references. -/
structure Fortified (cs : List Char) : Prop where
  long : 8 ≤ cs.length + 4 * cs.countP isQuote
  short : cs.length + 4 * cs.countP isQuote ≤ 64
  lower : cs.any Char.isLower = true
  upper : cs.any Char.isUpper = true
  digit : cs.any (fun c => c.isDigit || isQuote c) = true
  special : cs.any isSpecial = true

theorem written_of_not_isQuote {c : Char} (hnul : c ≠ '\x00') (hquote : isQuote c = false) :
    written c = [c] := by
  obtain ⟨hsingle, hdouble⟩ := Bool.or_eq_false_iff.1 hquote
  exact written_of_plain ⟨hnul, by simpa using hsingle, by simpa using hdouble⟩

theorem eq_of_isQuote {c : Char} (hquote : isQuote c = true) : c = '\'' ∨ c = '\"' := by
  simpa [isQuote] using hquote

theorem length_flatMap_written {cs : List Char} (hnul : ∀ c ∈ cs, c ≠ '\x00') :
    (cs.flatMap written).length = cs.length + 4 * cs.countP isQuote := by
  induction cs with
  | nil => rfl
  | cons c rest ih =>
    have hrest := ih fun d hd => hnul d (List.mem_cons_of_mem _ hd)
    rw [List.flatMap_cons, List.length_append, hrest, List.length_cons]
    by_cases hquote : isQuote c = true
    · have hfive : (written c).length = 5 := by
        obtain rfl | rfl := eq_of_isQuote hquote <;> decide
      rw [List.countP_cons_of_pos hquote, hfive]
      omega
    · have hone := written_of_not_isQuote (hnul c List.mem_cons_self) (by simpa using hquote)
      rw [List.countP_cons_of_neg hquote, hone, List.length_singleton]
      omega

/-- A test of the written characters is one of the characters themselves, if it agrees on the
quotes with their references. -/
theorem any_flatMap_written {cs : List Char} (hnul : ∀ c ∈ cs, c ≠ '\x00') (p q : Char → Bool)
    (hsingle : (written '\'').any p = q '\'') (hdouble : (written '\"').any p = q '\"')
    (hplain : ∀ c, isQuote c = false → p c = q c) : (cs.flatMap written).any p = cs.any q := by
  rw [List.any_flatMap]
  induction cs with
  | nil => rfl
  | cons c rest ih =>
    have hc : (written c).any p = q c := by
      by_cases hquote : isQuote c = true
      · obtain rfl | rfl := eq_of_isQuote hquote
        · exact hsingle
        · exact hdouble
      · have hquote : isQuote c = false := by simpa using hquote
        rw [written_of_not_isQuote (hnul c List.mem_cons_self) hquote, ← hplain c hquote]
        simp
    rw [List.any_cons, List.any_cons, hc, ih fun d hd => hnul d (List.mem_cons_of_mem _ hd)]

/-- **When the characters outside tags are written as a strong password.** -/
theorem isStrong_flatMap_written_iff {cs : List Char} (hnul : ∀ c ∈ cs, c ≠ '\x00') :
    Checks.isStrong (String.ofList (cs.flatMap written)) = true ↔ Fortified cs := by
  have hlower := any_flatMap_written hnul Char.isLower Char.isLower (by decide) (by decide)
    fun _ _ => rfl
  have hupper := any_flatMap_written hnul Char.isUpper Char.isUpper (by decide) (by decide)
    fun _ _ => rfl
  have hdigit := any_flatMap_written hnul Char.isDigit (fun c => c.isDigit || isQuote c)
    (by decide) (by decide) fun c hc => by rw [hc, Bool.or_false]
  have hspecial := any_flatMap_written hnul isSpecial isSpecial (by decide) (by decide)
    fun _ _ => rfl
  unfold Checks.isStrong
  rw [String.toList_ofList]
  show (decide (8 ≤ (cs.flatMap written).length) && decide ((cs.flatMap written).length ≤ 64) &&
    (cs.flatMap written).any Char.isLower && (cs.flatMap written).any Char.isUpper &&
    (cs.flatMap written).any Char.isDigit && (cs.flatMap written).any isSpecial) = true ↔ _
  rw [length_flatMap_written hnul, hlower, hupper, hdigit, hspecial]
  simp only [Bool.and_eq_true, decide_eq_true_eq]
  constructor
  · intro h
    obtain ⟨⟨⟨⟨⟨hlong, hshort⟩, hlower⟩, hupper⟩, hdigit⟩, hspecial⟩ := h
    exact ⟨hlong, hshort, hlower, hupper, hdigit, hspecial⟩
  · intro h
    exact ⟨⟨⟨⟨⟨h.long, h.short⟩, h.lower⟩, h.upper⟩, h.digit⟩, h.special⟩

/-! ### Running -/

theorem combines_secure : Combines "string|secure" .text ⟨"secure", []⟩ :=
  .of_tokens "secure" "secure" rfl rfl rfl rfl rfl

/-- A policy that trims leaves the characters of a text that can be seen, each written alone. -/
theorem Policy.finishText_visible {policy : Policy} (htrims : policy.trims = true) (s : String) :
    policy.finishText (Tag.text.cleanText s) = String.ofList ((shown s).flatMap written) := by
  rw [← toList_trimBlank_visible, String.ofList_toList]
  simp [Policy.finishText, htrims, Tag.cleanText]

/-- What a fortified password says of the text that it was found in. -/
theorem Fortified.of_shown {p : String} (h : Fortified (shown p)) :
    (Text.trimBlank p).toList.any Char.isLower = true ∧
    (Text.trimBlank p).toList.any Char.isUpper = true ∧
    (Text.trimBlank p).toList.any isSpecial = true ∧
    ((Text.trimBlank p).toList.any Char.isDigit = true ∨ (outer p).any isQuote = true) ∧
    8 ≤ (Text.trimBlank p).toList.length + 4 * (outer p).countP isQuote ∧
    (outer p = p.toList → '\x00' ∉ p.toList → (Text.trimBlank p).toList.length ≤ 64) := by
  have hpart : (shown p).Sublist (Text.trimBlank p).toList := shown_sublist p
  have houter : (shown p).Sublist (outer p) :=
    List.filter_sublist.trans (Text.strip_isInfix _ _).sublist
  have hany : ∀ q : Char → Bool, (shown p).any q = true →
      (Text.trimBlank p).toList.any q = true := by
    intro q hq
    obtain ⟨c, hc, hqc⟩ := List.any_eq_true.1 hq
    exact List.any_eq_true.2 ⟨c, hpart.subset hc, hqc⟩
  refine ⟨hany _ h.lower, hany _ h.upper, hany _ h.special, ?_, ?_, ?_⟩
  · obtain ⟨c, hc, hdigit⟩ := List.any_eq_true.1 h.digit
    obtain hdigit | hquote := Bool.or_eq_true_iff.1 hdigit
    · exact .inl (List.any_eq_true.2 ⟨c, hpart.subset hc, hdigit⟩)
    · exact .inr (List.any_eq_true.2 ⟨c, houter.subset hc, hquote⟩)
  · have hlength := hpart.length_le
    have hquotes : (shown p).countP isQuote ≤ (outer p).countP isQuote := houter.countP_le
    have hlong := h.long
    omega
  · intro hall hnul
    have hshort := h.short
    rw [shown_eq hall hnul] at hshort
    omega

/-- A field with the rule string `string|secure` is accepted if and only if the characters that can
be seen are fortified. -/
theorem Pipeline.get?_failures_secure_iff [PhoneDirectory] {policy : Policy}
    (htrims : policy.trims = true) (strict : Bool) (today : Date) {r : Record} (w : Wording)
    {field p : String} (htext : r.get? field = some (.text p)) :
    (∃ o, Pipeline.run ⟨policy, ⟨.standard, strict⟩⟩ today r
      (Dict.ofList [(field, "string|secure")]) w = .ok o) ∧
    ∀ fields o, fields.get? field = some "string|secure" →
      Pipeline.run ⟨policy, ⟨.standard, strict⟩⟩ today r fields w = .ok o →
      (o.failures.get? field = none ↔ Fortified (shown p)) := by
  have hrule : ∃ message, Registry.standard.get? "secure" =
      some ⟨Checks.secure, message, 0⟩ := by
    rw [Registry.get?_standard]
    exact ⟨_, rfl⟩
  obtain ⟨message, hrule⟩ := hrule
  refine ⟨combines_secure.exists_run hrule (Nat.zero_le _) field today r w, ?_⟩
  intro fields o hfields hrun
  have hrecord : o.record.get? field =
      some (.text (String.ofList ((shown p).flatMap written))) := by
    rw [combines_secure.get?_record_of_text rfl hrun hfields htext,
      Policy.finishText_visible htrims]
  rw [combines_secure.get?_failures_eq_none_iff hrule hrun hfields,
    Checks.secure_iff_of_text hrecord,
    isStrong_flatMap_written_iff fun c hc => ne_nul_of_mem_shown hc]

/-- **Which passwords are accepted after cleaning.**  A field with the rule string
`string|secure` is accepted if and only if the characters outside its tags make up a strong
password once the quotes among them are written as references.  Then the trimmed text itself has
a lower-case letter, an upper-case letter and a special character, a digit or a quote outside its
tags, and eight characters if each such quote counts for five; it has at most 64 characters if
there is neither a tag nor a NUL in it. -/
theorem Pipeline.run_accepts_password_iff [PhoneDirectory] (policy : Policy)
    (htrims : policy.trims = true) (strict : Bool) (today : Date) (r : Record) (w : Wording)
    (field p : String) (htext : r.get? field = some (.text p)) :
    (∃ o, Pipeline.run ⟨policy, ⟨.standard, strict⟩⟩ today r
      (Dict.ofList [(field, "string|secure")]) w = .ok o) ∧
    ∀ fields o, fields.get? field = some "string|secure" →
      Pipeline.run ⟨policy, ⟨.standard, strict⟩⟩ today r fields w = .ok o →
      (o.failures.get? field = none ↔ Fortified (shown p)) ∧
      (o.failures.get? field = none →
        (Text.trimBlank p).toList.any Char.isLower = true ∧
        (Text.trimBlank p).toList.any Char.isUpper = true ∧
        (Text.trimBlank p).toList.any isSpecial = true ∧
        ((Text.trimBlank p).toList.any Char.isDigit = true ∨ (outer p).any isQuote = true) ∧
        8 ≤ (Text.trimBlank p).toList.length + 4 * (outer p).countP isQuote ∧
        (outer p = p.toList → '\x00' ∉ p.toList →
          (Text.trimBlank p).toList.length ≤ 64)) := by
  obtain ⟨hruns, haccepts⟩ := get?_failures_secure_iff htrims strict today w htext
  refine ⟨hruns, fun fields o hfields hrun => ⟨haccepts fields o hfields hrun, fun hnone => ?_⟩⟩
  exact ((haccepts fields o hfields hrun).1 hnone).of_shown

open TwoCountries in
/-- A strong password is accepted, and has the eight characters itself. -/
theorem Pipeline.run_accepts_password_iff_of_signup :
    ∃ o, Pipeline.standard.run ⟨2024, 6, 15, by decide⟩
        (Dict.ofList [("password", .text " Tr0ub4dor&3 ")])
        (Dict.ofList [("password", "string|secure")]) .empty = .ok o ∧
      o.failures.get? "password" = none ∧ (outer " Tr0ub4dor&3 ").countP isQuote = 0 ∧
      8 ≤ (Text.trimBlank " Tr0ub4dor&3 ").toList.length +
        4 * (outer " Tr0ub4dor&3 ").countP isQuote := by
  obtain ⟨⟨o, hrun⟩, hall⟩ := run_accepts_password_iff {} rfl false ⟨2024, 6, 15, by decide⟩
    (Dict.ofList [("password", .text " Tr0ub4dor&3 ")]) .empty "password" " Tr0ub4dor&3 " rfl
  obtain ⟨haccepts, himplies⟩ := hall _ o rfl hrun
  have hshown : shown " Tr0ub4dor&3 " = "Tr0ub4dor&3".toList := rfl
  have hfortified : Fortified (shown " Tr0ub4dor&3 ") := by
    rw [hshown]
    exact ⟨by decide, by decide, by decide, by decide, by decide, by decide⟩
  have hnone := haccepts.2 hfortified
  exact ⟨o, hrun, hnone, rfl, (himplies hnone).2.2.2.2.1⟩

/-- Filtering a field with this password alone, by the default policy, reports nothing. -/
def Pipeline.AcceptsPassword [PhoneDirectory] (p : String) : Prop :=
  ∃ o, Pipeline.standard.run ⟨2024, 6, 15, by decide⟩ (Dict.ofList [("p", .text p)])
      (Dict.ofList [("p", "string|secure")]) .empty = .ok o ∧ o.failures.get? "p" = none

theorem Pipeline.acceptsPassword_of_shown [PhoneDirectory] {p : String} {cs : List Char}
    (hshown : shown p = cs) (h : Fortified cs) : AcceptsPassword p := by
  obtain ⟨⟨o, hrun⟩, haccepts⟩ :=
    get?_failures_secure_iff (show Policy.trims {} = true from rfl) false
      ⟨2024, 6, 15, by decide⟩ .empty
      (show (Dict.ofList [("p", Value.text p)]).get? "p" = some (.text p) from rfl)
  rw [← hshown] at h
  exact ⟨o, hrun, (haccepts _ o rfl hrun).2 h⟩

open TwoCountries in
/-- A quote helps a short password and one without a digit, and a tag hides the length of a long
one. -/
theorem Pipeline.accepts_weak_passwords :
    (AcceptsPassword "Abc1\'" ∧ (Text.trimBlank "Abc1\'").length < 8) ∧
    (AcceptsPassword "Abcdefg\'" ∧
      (Text.trimBlank "Abcdefg\'").toList.any Char.isDigit = false) ∧
    AcceptsPassword "<ABCDEFGHIJKLMNOPQRSTUVWXYZABCDEFGHIJKLMNOPQRSTUVWXYZABCDEFGHI>Abcdef1!" ∧
      64 < (Text.trimBlank
        "<ABCDEFGHIJKLMNOPQRSTUVWXYZABCDEFGHIJKLMNOPQRSTUVWXYZABCDEFGHI>Abcdef1!").length := by
  have hshort : Fortified "Abc1\'".toList :=
    ⟨by decide, by decide, by decide, by decide, by decide, by decide⟩
  have hwordy : Fortified "Abcdefg\'".toList :=
    ⟨by decide, by decide, by decide, by decide, by decide, by decide⟩
  have hlong : Fortified "Abcdef1!".toList :=
    ⟨by decide, by decide, by decide, by decide, by decide, by decide⟩
  exact ⟨⟨acceptsPassword_of_shown rfl hshort, by decide⟩,
    ⟨acceptsPassword_of_shown rfl hwordy, by decide⟩,
    acceptsPassword_of_shown rfl hlong, by decide⟩

end Intake
