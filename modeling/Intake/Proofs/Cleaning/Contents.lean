import Intake.Proofs.Cleaning.Fields
import Intake.Proofs.Text.Printable
import Intake.Proofs.Text.Stripping
import Intake.Proofs.Text.Visible

/-!
# What cleaned records hold

The texts of a cleaned field hold nothing but what its tag admits: the characters of an
alphabet, or text as it stands outside markup tags.  Trimming takes a piece of such a text, so
it admits the same, apart from a `<` that was not the last character before.

* `Tag.Admits`: the texts that a tag admits.
* `Tag.admits_cleanText`: what a tag writes it admits.
* `Policy.scalar_of_covers` and `Policy.not_isBlank_of_mem_scalars`: the scalars of a cleaned
  field.
* `Policy.clean_contents`: the contents of cleaned records.
-/

namespace Intake.Cleaning

namespace Tag

/-- The alphabet of a tag; tags for text remove markup instead. -/
def alphabet? : Tag → Option Text.Alphabet
  | text => none
  | texts => none
  | email => some .address
  | int => some .integer
  | ints => some .integer
  | float => some .decimal
  | floats => some .decimal
  | url => some .link

/-- The texts of fields that have been cleaned by a tag. -/
inductive Admits (tag : Tag) (cs : List Char) : Prop where
  | allowed {alphabet : Text.Alphabet} (found : tag.alphabet? = some alphabet)
      (only : ∀ c ∈ cs, alphabet.Has c) : Admits tag cs
  | settled (markup : tag.alphabet? = none) (settled : Text.Markup.Settled cs) : Admits tag cs

variable {tag : Tag} {cs : List Char}

theorem cleanText_of_alphabet {alphabet : Text.Alphabet} (h : tag.alphabet? = some alphabet)
    (s : String) : tag.cleanText s = alphabet.keep s := by
  cases tag <;> cases h <;> rfl

theorem cleanText_of_markup (h : tag.alphabet? = none) (s : String) :
    tag.cleanText s = Text.Markup.visible s := by
  cases tag <;> cases h <;> rfl

theorem toList_cleanText_of_alphabet {alphabet : Text.Alphabet}
    (h : tag.alphabet? = some alphabet) (s : String) :
    (tag.cleanText s).toList = s.toList.filter alphabet.allows := by
  rw [cleanText_of_alphabet h, Text.Alphabet.keep, String.toList_ofList]

theorem toList_cleanText_of_markup (h : tag.alphabet? = none) (s : String) :
    (tag.cleanText s).toList = Text.Markup.visibleFrom .outside s.toList := by
  rw [cleanText_of_markup h, Text.Markup.visible, String.toList_ofList]

/-- **What a tag writes it admits.** -/
theorem admits_cleanText (tag : Tag) (s : String) : tag.Admits (tag.cleanText s).toList := by
  cases h : tag.alphabet? with
  | some alphabet =>
    refine .allowed h ?_
    rw [toList_cleanText_of_alphabet h]
    intro c hc
    exact (alphabet.allows_iff_has c).1 (List.mem_filter.1 hc).2
  | none =>
    refine .settled h ?_
    rw [toList_cleanText_of_markup h]
    exact (Text.Markup.finished_visibleFrom _ _).toSettled

/-- A tag for text writes no `<` at the end. -/
theorem getLast?_cleanText_ne (h : tag.alphabet? = none) (s : String) :
    (tag.cleanText s).toList.getLast? ≠ some '<' := by
  rw [toList_cleanText_of_markup h]
  exact (Text.Markup.finished_visibleFrom _ _).closed

theorem Admits.of_isInfix {ds : List Char} (h : tag.Admits cs) (hin : ds <:+: cs) :
    tag.Admits ds := by
  cases h with
  | allowed found only => exact .allowed found fun c hc => only c (hin.subset hc)
  | settled markup settled => exact .settled markup (settled.of_isInfix hin)

theorem Admits.trimBlank {s : String} (h : tag.Admits s.toList) :
    tag.Admits (Text.trimBlank s).toList := by
  rw [Text.trimBlank, String.toList_ofList]
  exact h.of_isInfix (Text.strip_isInfix _ _)

end Tag

namespace Policy

variable {p : Policy} {names : Dict String} {tags : Dict Tag} {field : String} {tag : Tag}
  {v : Value}

theorem admits_finishText (p : Policy) (tag : Tag) (s : String) :
    tag.Admits (p.finishText (tag.cleanText s)).toList := by
  have hclean := tag.admits_cleanText s
  unfold finishText
  split
  · exact hclean.trimBlank
  · exact hclean

/-- **The scalars of a covered field** are null or texts that its tag admits. -/
theorem scalar_of_covers (h : resolve names = .ok tags) (hcovers : p.Covers names field tag)
    {a : Scalar} (ha : a ∈ (p.cleanTo tags field v).scalars) :
    a = .null ∨ ∃ s, a = .text s ∧ tag.Admits s.toList ∧
      (tag.alphabet? = none → p.trims = false → s.toList.getLast? ≠ some '<') := by
  rcases cleanTo_of_covers h hcovers v with hnull | hscrub
  · rw [hnull, Value.null, Value.scalars_scalar, List.mem_singleton] at ha
    exact Or.inl ha
  · rw [hscrub, Value.scalars_map] at ha
    obtain ⟨b, _, rfl⟩ := List.mem_map.1 ha
    rcases p.scrub_cases tag b with hnull | ⟨s, htext⟩
    · exact Or.inl hnull
    · refine Or.inr ⟨_, htext, p.admits_finishText tag s, ?_⟩
      intro hmarkup htrims
      have hfinish : p.finishText (tag.cleanText s) = tag.cleanText s := by
        simp [finishText, htrims]
      rw [hfinish]
      exact Tag.getLast?_cleanText_ne hmarkup s

/-- **No text of a trimmed field begins or ends with a blank**, whether a tag covers the field
or not. -/
theorem not_isBlank_of_mem_scalars (htrims : p.trims = true) {s : String}
    (hs : .text s ∈ (p.cleanTo tags field v).scalars) {c : Char}
    (hc : s.toList.head? = some c ∨ s.toList.getLast? = some c) : Text.isBlank c = false := by
  rw [cleanTo, finish_eq_map, Value.scalars_map] at hs
  obtain ⟨a, _, ha⟩ := List.mem_map.1 hs
  -- only texts are trimmed to texts
  cases a with
  | text t =>
    have htrim : Text.trimBlank t = s := by
      simpa [finishScalar, finishText, htrims] using ha
    rw [← htrim, Text.trimBlank, String.toList_ofList] at hc
    rcases hc with hhead | hlast
    · exact Text.not_of_head?_strip hhead
    · exact Text.not_of_getLast?_strip hlast
  | _ => cases ha

/-- **The contents of cleaned records.**  If all tags are known, cleaning succeeds and keeps
the keys of the record.  In the fields that a tag covers nothing is left but null and texts
that the tag admits, at every depth of lists.  If texts are trimmed, none begins or ends with a
blank, and otherwise none that has been cleaned of markup ends with `<`. -/
theorem clean_contents (p : Policy) (names : Dict String) (r : Record)
    (known : ∀ e ∈ names.entries, ∃ tag, Tag.read e.2 = .ok tag) :
    ∃ cleaned, p.clean names r = .ok cleaned ∧ cleaned.keys = r.keys ∧
      ∀ field v, cleaned.get? field = some v →
        (∀ tag, p.Covers names field tag → ∀ a ∈ v.scalars,
          a = .null ∨ ∃ s, a = .text s ∧ tag.Admits s.toList ∧
            (tag.alphabet? = none → p.trims = false → s.toList.getLast? ≠ some '<')) ∧
        (p.trims = true → ∀ s, .text s ∈ v.scalars →
          ∀ c, s.toList.head? = some c ∨ s.toList.getLast? = some c → Text.isBlank c = false) := by
  obtain ⟨tags, htags⟩ := (exists_resolve_eq_ok_iff names).2 known
  refine ⟨p.cleanWith tags r, clean_of_resolve htags p r, keys_cleanWith p tags r, ?_⟩
  intro field v hv
  -- the cleaned value comes from the value of the same field
  rw [get?_cleanWith, Option.map_eq_some_iff] at hv
  obtain ⟨v₀, _, rfl⟩ := hv
  constructor
  · intro tag hcovers a ha
    exact scalar_of_covers htags hcovers ha
  · intro htrims s hs c hc
    exact not_isBlank_of_mem_scalars htrims hs hc

/-- A list inside a list is cleaned of markup, and the field without a tag is trimmed. -/
theorem clean_contents_of_notes :
    let names : Dict String := Dict.ofList [("notes", " string[] ")]
    let r : Record := Dict.ofList
      [("notes", .list [.list [.scalar (.text "<b>a</b> < \'"), .scalar (.bool true)], .null]),
        ("plain", .scalar (.text " <b> "))]
    (∀ e ∈ names.entries, ∃ tag, Tag.read e.2 = .ok tag) ∧
      ∃ cleaned, Policy.clean {} names r = .ok cleaned ∧ cleaned.keys = ["notes", "plain"] ∧
        (∀ v, cleaned.get? "notes" = some v → ∀ a ∈ v.scalars,
          a = .null ∨ ∃ s, a = .text s ∧ Tag.texts.Admits s.toList) ∧
        ∀ v, cleaned.get? "plain" = some v → ∀ s, .text s ∈ v.scalars →
          s.toList.head? ≠ some ' ' := by
  intro names r
  have hread : ∀ e ∈ names.entries, (Tag.read e.2).isOk = true := by decide +kernel
  have known : ∀ e ∈ names.entries, ∃ tag, Tag.read e.2 = .ok tag :=
    fun e he => exists_eq_ok_of_isOk (hread e he)
  obtain ⟨cleaned, hclean, hkeys, hcontents⟩ := clean_contents {} names r known
  have hfound : names.get? "notes" = some " string[] " := by decide +kernel
  have hcovers : Policy.Covers {} names "notes" .texts := .named hfound rfl
  refine ⟨known, cleaned, hclean, hkeys.trans (by decide +kernel), ?_, ?_⟩
  · intro v hv a ha
    rcases (hcontents "notes" v hv).1 .texts hcovers a ha with hnull | ⟨s, htext, hadmits, _⟩
    · exact Or.inl hnull
    · exact Or.inr ⟨s, htext, hadmits⟩
  · intro v hv s hs hspace
    have hblank := (hcontents "plain" v hv).2 rfl s hs ' ' (Or.inl hspace)
    exact absurd hblank (by decide)

end Policy

end Intake.Cleaning
