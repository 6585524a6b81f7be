import Intake.Proofs.Cleaning.Fields

/-!
# Tags of fields and the default tag

A tag cleans a field in two ways.  As the tag of the field it refuses values of the wrong shape;
as the default tag it takes every shape.  On all other values the two agree, and since no value
but null is cleaned to null, they differ on all refused ones.

* `Policy.cleanTo_of_default`: how the default tag cleans a field.
* `Policy.cleanTo_own_eq_default_iff` and `Policy.get?_cleanWith_ne_default_iff`: the values and
  the fields at which the two ways of cleaning differ.
* `Policy.own_tag_agrees_with_default`: what cleaning by a tag makes of values, and of records in
  both ways.
-/

namespace Intake.Cleaning.Policy

variable {p : Policy} {tags : Dict Tag} {field : String} {tag : Tag}

/-! ### One field -/

/-- The default tag scrubs the scalars of every value. -/
theorem cleanTo_of_default (p : Policy) (tag : Tag) (field : String) (v : Value) :
    { p with defaultTag := tag }.cleanTo .empty field v = v.map (p.scrub tag) :=
  cleanTo_of_isEmpty rfl v

/-- Scrubbing makes nothing null that has not been null. -/
theorem map_scrub_eq_null_iff (p : Policy) (tag : Tag) (v : Value) :
    v.map (p.scrub tag) = .null ↔ v = .null := by
  constructor
  · intro hnull
    cases v with
    | scalar a =>
      cases a with
      | null => rfl
      | _ => cases hnull
    | list items => cases hnull
  · rintro rfl
    rfl

/-- **The two ways of cleaning a field differ at the values that the tag refuses.** -/
theorem cleanTo_own_eq_default_iff (h : tags.get? field = some tag) (v : Value) :
    p.cleanTo tags field v = { p with defaultTag := tag }.cleanTo .empty field v ↔
      ¬ tag.Misfits v := by
  rw [cleanTo_of_own h, finish_fit?, cleanTo_of_default]
  split
  · rename_i hmisfits
    rw [eq_comm, map_scrub_eq_null_iff]
    exact ⟨fun hnull => absurd hnull hmisfits.given, fun hfits => absurd hmisfits hfits⟩
  · rename_i hfits
    exact ⟨fun _ => hfits, fun _ => rfl⟩

/-! ### Records -/

variable {r : Record}

theorem get?_cleanWith_of_misfits (h : tags.get? field = some tag) {v : Value}
    (hv : r.get? field = some v) (hmisfits : tag.Misfits v) :
    (p.cleanWith tags r).get? field = some .null := by
  rw [get?_cleanWith, hv, Option.map_some, cleanTo_of_own h, finish_fit?, if_pos hmisfits]

/-- If all fields of a record have the same tag, the two ways of cleaning it differ at the fields
that the tag refuses. -/
theorem get?_cleanWith_ne_default_iff (p : Policy)
    (h : ∀ field v, r.get? field = some v → tags.get? field = some tag) (field : String) :
    (p.cleanWith tags r).get? field ≠
        ({ p with defaultTag := tag }.cleanWith .empty r).get? field ↔
      ∃ v, r.get? field = some v ∧ tag.Misfits v := by
  rw [get?_cleanWith, get?_cleanWith]
  cases hget : r.get? field with
  | none => simp
  | some v =>
    have hown := h field v hget
    rw [Option.map_some, Option.map_some, ne_eq, Option.some_inj,
      cleanTo_own_eq_default_iff hown, not_not]
    simp

/-- **The two ways of cleaning agree up to the shapes that a tag refuses.**  As the tag of a
field a tag refuses the values that are not null and a list where it wants none, or the other
way round.  Of every other value it makes what it makes of it as the default tag: the value of
the same shape with null for null and the cleaned texts for the other scalars.

Cleaning under known tags succeeds and keeps the keys of the record.  If all fields of the
record have the tag, the cleaned record differs from the one that is cleaned with the tag as
default tag at the fields of the wrong shape and nowhere else, and these have become null. -/
theorem own_tag_agrees_with_default (tag : Tag) :
    (∀ v, (tag.fit? v = none ↔ tag.Misfits v) ∧
      (tag.fit? v ≠ none → tag.fit? v = some (tag.cleanse v)) ∧
      ∀ w, tag.cleanse v = w ↔ v.Matches tag.Cleans w) ∧
    ∀ (p : Policy) (names : Dict String) (r : Record),
      (∀ e ∈ names.entries, ∃ other, Tag.read e.2 = .ok other) →
      ∃ cleaned, p.clean names r = .ok cleaned ∧ cleaned.keys = r.keys ∧
        ((∀ field ∈ r.keys, ∃ name, names.get? field = some name ∧ Tag.read name = .ok tag) →
          ∃ byDefault, { p with defaultTag := tag }.clean .empty r = .ok byDefault ∧
            byDefault.keys = r.keys ∧
            ∀ field,
              (cleaned.get? field ≠ byDefault.get? field ↔
                ∃ v, r.get? field = some v ∧ tag.Misfits v) ∧
              (cleaned.get? field ≠ byDefault.get? field →
                cleaned.get? field = some .null)) := by
  constructor
  · intro v
    refine ⟨tag.fit?_eq_none_iff v, ?_, tag.cleanse_eq_iff v⟩
    rw [ne_eq, Tag.fit?_eq_none_iff]
    exact Tag.fit?_of_not_misfits
  · intro p names r known
    obtain ⟨tags, htags⟩ := (exists_resolve_eq_ok_iff names).2 known
    refine ⟨p.cleanWith tags r, clean_of_resolve htags p r, keys_cleanWith p tags r, ?_⟩
    intro listed
    have hown : ∀ field v, r.get? field = some v → tags.get? field = some tag := by
      intro field v hv
      refine (get?_of_resolve htags field tag).2 (listed field ?_)
      rw [Dict.mem_keys_iff, hv]
      rfl
    refine ⟨_, clean_of_resolve rfl _ r, keys_cleanWith _ .empty r, ?_⟩
    intro field
    have hdiffer := get?_cleanWith_ne_default_iff p hown field
    refine ⟨hdiffer, fun hne => ?_⟩
    obtain ⟨v, hv, hmisfits⟩ := hdiffer.1 hne
    exact get?_cleanWith_of_misfits (hown field v hv) hv hmisfits

/-- A text is refused where a list is wanted, and a list keeps its null and the list in it. -/
theorem own_tag_agrees_with_default_of_ids :
    let names : Dict String := Dict.ofList [("ages", "int[]"), ("id", " int[] ")]
    let ages : Value :=
      .list [.scalar (.text " 4x "), .null, .list [.scalar (.bool true), .list []]]
    let r : Record := Dict.ofList [("ages", ages), ("id", .scalar (.text "7"))]
    (∀ e ∈ names.entries, ∃ other, Tag.read e.2 = .ok other) ∧
      (∀ field ∈ r.keys, ∃ name, names.get? field = some name ∧ Tag.read name = .ok .ints) ∧
      Tag.fit? .ints ages =
        some (.list [.scalar (.text "4"), .null, .list [.scalar (.text "1"), .list []]]) ∧
      ∃ cleaned byDefault, Policy.clean {} names r = .ok cleaned ∧
        Policy.clean ⟨.ints, true⟩ .empty r = .ok byDefault ∧
        cleaned.keys = ["ages", "id"] ∧
        cleaned.get? "ages" = byDefault.get? "ages" ∧
        cleaned.get? "id" = some .null ∧ byDefault.get? "id" ≠ some .null := by
  intro names ages r
  have hread : ∀ e ∈ names.entries, (Tag.read e.2).isOk = true := by decide +kernel
  have known : ∀ e ∈ names.entries, ∃ other, Tag.read e.2 = .ok other :=
    fun e he => exists_eq_ok_of_isOk (hread e he)
  have hkeys : r.keys = ["ages", "id"] := by decide +kernel
  have listed : ∀ field ∈ r.keys,
      ∃ name, names.get? field = some name ∧ Tag.read name = .ok .ints := by
    intro field hfield
    rw [hkeys, List.mem_cons, List.mem_singleton] at hfield
    rcases hfield with rfl | rfl
    · exact ⟨"int[]", rfl, rfl⟩
    · exact ⟨" int[] ", rfl, rfl⟩
  obtain ⟨hvalues, hrecords⟩ := own_tag_agrees_with_default .ints
  obtain ⟨cleaned, hclean, hcleaned, hagree⟩ := hrecords {} names r known
  obtain ⟨byDefault, hdefault, _, hfields⟩ := hagree listed
  have hages : r.get? "ages" = some ages := Dict.get?_ofList _ "ages"
  have hid : r.get? "id" = some (.scalar (.text "7")) := Dict.get?_ofList _ "id"
  refine ⟨known, listed, ?_, cleaned, byDefault, hclean, hdefault, hcleaned.trans hkeys, ?_, ?_⟩
  · have hfits : Tag.fit? .ints ages ≠ none := by
      rw [ne_eq, (hvalues ages).1]
      decide
    rw [(hvalues ages).2.1 hfits]
    rfl
  · by_contra hne
    obtain ⟨v, hv, hmisfits⟩ := (hfields "ages").1.1 hne
    obtain rfl : ages = v := Option.some.inj (hages.symm.trans hv)
    exact absurd hmisfits (by decide)
  · have hdiffer := (hfields "id").1.2 ⟨_, hid, by decide⟩
    have hnull := (hfields "id").2 hdiffer
    exact ⟨hnull, fun hnull' => hdiffer (hnull.trans hnull'.symm)⟩

end Intake.Cleaning.Policy
