import Intake.Proofs.Cleaning.Contents

/-!
# Cleaning again

Cleaning a cleaned record again mostly changes nothing: the texts that a tag admits pass
through it.  The exception comes from trimming, which follows the removal of markup.  It may
bring a `<` to the end of a text, where a second scan takes it for a tag that never ends.

* `Tag.cleanText_eq_self_iff`: the admitted texts that cleaning leaves as they are.
* `Policy.cleanTo_cleanTo_eq_self_iff`: the same for cleaned fields.
* `Policy.clean_clean_iff`: the same for cleaned records.
* `Policy.clean_clean_ne`: a record that a second cleaning changes.
-/

namespace Intake.Cleaning

namespace Tag

variable {tag : Tag}

/-- An admitted text with a `<` at its end gets shorter when it is cleaned of markup. -/
theorem length_cleanText_lt {s : String} (h : tag.Admits s.toList) (hmarkup : tag.alphabet? = none)
    (hlast : s.toList.getLast? = some '<') :
    (tag.cleanText s).toList.length < s.toList.length := by
  cases h with
  | allowed found only =>
    rw [hmarkup] at found
    cases found
  | settled markup settled =>
    rw [toList_cleanText_of_markup markup]
    exact Text.Markup.length_visibleFrom_lt settled hlast

/-- **A tag leaves a text that it admits as it is**, unless it removes markup and the text
ends in `<`. -/
theorem cleanText_eq_self_iff {s : String} (h : tag.Admits s.toList) :
    tag.cleanText s = s ↔ (tag.alphabet? = none → s.toList.getLast? ≠ some '<') := by
  constructor
  · intro hclean hmarkup hlast
    have hlt := length_cleanText_lt h hmarkup hlast
    rw [hclean] at hlt
    exact Nat.lt_irrefl _ hlt
  · intro hclosed
    rw [← String.toList_inj]
    cases h with
    | @allowed alphabet found only =>
      rw [toList_cleanText_of_alphabet found, List.filter_eq_self]
      exact fun c hc => (alphabet.allows_iff_has c).2 (only c hc)
    | settled markup settled =>
      rw [toList_cleanText_of_markup markup]
      exact Text.Markup.visibleFrom_of_finished ⟨settled, hclosed markup⟩

end Tag

namespace Policy

variable {p : Policy} {names : Dict String} {tags : Dict Tag} {field : String} {tag : Tag}

theorem length_finishText_le (p : Policy) (s : String) :
    (p.finishText s).toList.length ≤ s.toList.length := by
  unfold finishText
  split
  · rw [Text.trimBlank, String.toList_ofList]
    exact Text.length_strip_le _ _
  · exact Nat.le_refl _

theorem finishScalar_finishScalar (p : Policy) (a : Scalar) :
    p.finishScalar (p.finishScalar a) = p.finishScalar a := by
  cases a with
  | text s =>
    cases htrims : p.trims with
    | true => simp [finishScalar, finishText, htrims, Text.trimBlank_trimBlank]
    | false => simp [finishScalar, finishText, htrims]
  | _ => rfl

/-- A text of a cleaned field has been trimmed. -/
theorem finishText_of_mem_scalars {v : Value} {s : String}
    (hs : .text s ∈ (p.cleanTo tags field v).scalars) : p.finishText s = s := by
  have htrim : p.trims = true → Text.trimBlank s = s := by
    intro htrims
    rw [Text.trimBlank, ← String.toList_inj, String.toList_ofList, Text.strip_eq_self_iff]
    exact ⟨fun _ hc => not_isBlank_of_mem_scalars htrims hs (Or.inl hc),
      fun _ hc => not_isBlank_of_mem_scalars htrims hs (Or.inr hc)⟩
  unfold finishText
  split
  · exact htrim ‹_›
  · rfl

/-- **Cleaning a cleaned field again changes nothing**, unless trimming has brought a `<` to
the end of a text that a tag cleans of markup. -/
theorem cleanTo_cleanTo_eq_self_iff (h : resolve names = .ok tags) (v : Value) :
    p.cleanTo tags field (p.cleanTo tags field v) = p.cleanTo tags field v ↔
      (p.trims = true → ∀ tag, p.Covers names field tag → tag.alphabet? = none →
        ∀ s, .text s ∈ (p.cleanTo tags field v).scalars → s.toList.getLast? ≠ some '<') := by
  constructor
  · intro heq _ tag hcovers hmarkup s hs hlast
    rw [cleanTo_cleanTo h hcovers, Value.map_eq_self_iff] at heq
    have hscrub := heq _ hs
    rw [scrub_text, Scalar.text.injEq] at hscrub
    have hadmits : tag.Admits s.toList := by
      rcases scalar_of_covers h hcovers hs with hnull | ⟨t, htext, hadmits, _⟩
      · cases hnull
      · cases htext
        exact hadmits
    -- the second cleaning makes the text shorter, and trimming does not make up for it
    have hclean := Tag.length_cleanText_lt hadmits hmarkup hlast
    have htrim := p.length_finishText_le (tag.cleanText s)
    rw [hscrub] at htrim
    omega
  · intro hends
    by_cases hcovered : ∃ tag, p.Covers names field tag
    · obtain ⟨tag, hcovers⟩ := hcovered
      rw [cleanTo_cleanTo h hcovers, Value.map_eq_self_iff]
      intro a ha
      rcases scalar_of_covers h hcovers ha with rfl | ⟨s, rfl, hadmits, hclosed⟩
      · exact scrub_null
      · have hclean : tag.cleanText s = s := by
          rw [Tag.cleanText_eq_self_iff hadmits]
          intro hmarkup
          cases htrims : p.trims with
          | true => exact hends htrims tag hcovers hmarkup s ha
          | false => exact hclosed hmarkup htrims
        rw [scrub_text, hclean, finishText_of_mem_scalars ha]
    · rw [not_exists] at hcovered
      rw [cleanTo_of_not_covers h hcovered, cleanTo_of_not_covers h hcovered, Value.map_map,
        Value.map_eq_map_iff]
      intro a _
      exact p.finishScalar_finishScalar a

/-- **When cleaning twice is cleaning once.**  If all tags are known, a record can be cleaned,
and cleaning it again gives the same record if and only if texts are not trimmed or no text of
a field that is cleaned of markup ends in `<`. -/
theorem clean_clean_iff (p : Policy) (names : Dict String) (r : Record)
    (known : ∀ e ∈ names.entries, ∃ tag, Tag.read e.2 = .ok tag) :
    ∃ cleaned, p.clean names r = .ok cleaned ∧
      (p.clean names cleaned = .ok cleaned ↔
        (p.trims = true → ∀ field v tag, cleaned.get? field = some v →
          p.Covers names field tag → tag.alphabet? = none →
          ∀ s, .text s ∈ v.scalars → s.toList.getLast? ≠ some '<')) := by
  obtain ⟨tags, htags⟩ := (exists_resolve_eq_ok_iff names).2 known
  refine ⟨p.cleanWith tags r, clean_of_resolve htags p r, ?_⟩
  rw [clean_of_resolve htags, Except.ok.injEq, cleanWith_eq_self_iff]
  -- the values of the cleaned record are those of the record, cleaned
  have hvalue : ∀ {field v}, (p.cleanWith tags r).get? field = some v →
      ∃ v₀, p.cleanTo tags field v₀ = v := by
    intro field v hv
    rw [get?_cleanWith, Option.map_eq_some_iff] at hv
    obtain ⟨v₀, _, hv₀⟩ := hv
    exact ⟨v₀, hv₀⟩
  constructor
  · intro heq htrims field v tag hv hcovers
    obtain ⟨v₀, rfl⟩ := hvalue hv
    exact (cleanTo_cleanTo_eq_self_iff htags v₀).1 (heq field _ hv) htrims tag hcovers
  · intro hends field v hv
    obtain ⟨v₀, rfl⟩ := hvalue hv
    rw [cleanTo_cleanTo_eq_self_iff htags v₀]
    intro htrims tag hcovers
    exact hends htrims field _ tag hv hcovers

/-- Without trimming the `<` keeps the white space behind it. -/
theorem clean_clean_of_untrimmed :
    let p : Policy := ⟨.text, false⟩
    let names : Dict String := Dict.ofList [("s", "string")]
    let r : Record := Dict.ofList [("s", .scalar (.text "1 < "))]
    (∀ e ∈ names.entries, ∃ tag, Tag.read e.2 = .ok tag) ∧
      ∃ cleaned, p.clean names r = .ok cleaned ∧ p.clean names cleaned = .ok cleaned := by
  intro p names r
  have hread : ∀ e ∈ names.entries, (Tag.read e.2).isOk = true := by decide +kernel
  have known : ∀ e ∈ names.entries, ∃ tag, Tag.read e.2 = .ok tag :=
    fun e he => exists_eq_ok_of_isOk (hread e he)
  obtain ⟨cleaned, hclean, hagain⟩ := clean_clean_iff p names r known
  refine ⟨known, cleaned, hclean, hagain.2 ?_⟩
  intro htrims
  cases htrims

/-- With trimming the second cleaning takes the `<` away. -/
theorem clean_clean_ne :
    let names : Dict String := Dict.ofList [("s", "string")]
    let r : Record := Dict.ofList [("s", .scalar (.text "1 < "))]
    (∀ e ∈ names.entries, ∃ tag, Tag.read e.2 = .ok tag) ∧
      ∃ cleaned, Policy.clean {} names r = .ok cleaned ∧
        Policy.clean {} names cleaned ≠ .ok cleaned := by
  intro names r
  have hread : ∀ e ∈ names.entries, (Tag.read e.2).isOk = true := by decide +kernel
  obtain ⟨cleaned, hclean⟩ := exists_eq_ok_of_isOk
    (show (Policy.clean {} names r).isOk = true by decide +kernel)
  have honce : ((Policy.clean {} names r).toOption.bind (·.get? "s")).bind Value.text? =
      some "1 <" := by decide +kernel
  have htwice : (((Policy.clean {} names r).toOption.bind fun cleaned =>
      (Policy.clean {} names cleaned).toOption).bind (·.get? "s")).bind Value.text? =
      some "1" := by decide +kernel
  refine ⟨fun e he => exists_eq_ok_of_isOk (hread e he), cleaned, hclean, ?_⟩
  intro hagain
  rw [hclean] at honce htwice
  have hsame : (Policy.clean {} names cleaned).toOption = some cleaned := by
    rw [hagain]
    rfl
  rw [show (Except.ok cleaned : Except Problem Record).toOption = some cleaned from rfl,
    Option.bind_some] at honce htwice
  rw [hsame, Option.bind_some, honce] at htwice
  exact absurd htwice (by decide)

end Policy

end Intake.Cleaning
