import Intake.Cleaning.Policy
import Intake.Proofs.Cleaning.Shapes
import Intake.Proofs.FirstFailure

/-!
# Cleaning field by field

What a field is cleaned to depends on its value and its tag alone, and cleaning a value by a
tag changes its scalars one by one.

* `Policy.Covers`: the tag that a field is cleaned by.
* `Policy.scrub` is what cleaning by a tag does to a scalar.
* `Policy.cleanTo` is what a field is cleaned to, `Policy.cleanTo_of_own` by a tag of its own and
  `Policy.cleanTo_of_isEmpty` by the default tag.  `Policy.cleanTo_of_covers` says that this is
  null or the value with all scalars scrubbed, and `Policy.cleanTo_cleanTo` that a second
  cleaning scrubs them again.
* `Policy.clean_of_resolve` and `Policy.cleanWith_eq_self_iff`: cleaning records.
* `Policy.present?_cleanWith_congr`: records that agree on a field agree on it after cleaning.
-/

namespace Intake.Cleaning.Policy

/-! ### Tags -/

theorem resolve_eq_error_iff (names : Dict String) (problem : Problem) :
    resolve names = .error problem ↔
      FirstFailure (fun e => Tag.read e.2) names.entries problem :=
  mapExcept_eq_error_iff (fun _ name => Tag.read name) names problem

theorem exists_resolve_eq_ok_iff (names : Dict String) :
    (∃ tags, resolve names = .ok tags) ↔
      ∀ e ∈ names.entries, ∃ tag, Tag.read e.2 = .ok tag :=
  exists_mapExcept_eq_ok_iff (fun _ name => Tag.read name) names

theorem get?_of_resolve {names : Dict String} {tags : Dict Tag} (h : resolve names = .ok tags)
    (field : String) (tag : Tag) :
    tags.get? field = some tag ↔ ∃ name, names.get? field = some name ∧ Tag.read name = .ok tag :=
  get?_of_mapExcept (f := fun _ name => Tag.read name) h field tag

theorem isEmpty_of_resolve {names : Dict String} {tags : Dict Tag}
    (h : resolve names = .ok tags) : tags.isEmpty = names.isEmpty := by
  have hout : List.Forall₂ _ names.entries tags.entries :=
    forall₂_of_mapExcept (f := fun _ name => Tag.read name) h
  have hlength : names.entries.length = tags.entries.length := hout.length_eq
  unfold Dict.isEmpty
  rw [Bool.eq_iff_iff, List.isEmpty_iff_length_eq_zero, List.isEmpty_iff_length_eq_zero, hlength]

/-- The tag that a field is cleaned by, if it is cleaned at all. -/
inductive Covers (p : Policy) (names : Dict String) (field : String) : Tag → Prop where
  /-- If no field has a tag of its own, all fields are cleaned by the default tag. -/
  | default (none : names.isEmpty = true) : Covers p names field p.defaultTag
  | named {name : String} {tag : Tag} (found : names.get? field = some name)
      (known : Tag.read name = .ok tag) : Covers p names field tag

variable {p : Policy} {names : Dict String} {tags : Dict Tag} {field : String} {tag : Tag}

/-! ### Scalars -/

/-- Trims a text if the policy says so. -/
def finishText (p : Policy) (s : String) : String :=
  if p.trims then Text.trimBlank s else s

def finishScalar (p : Policy) : Scalar → Scalar
  | .text s => .text (p.finishText s)
  | a => a

/-- Cleans a scalar by a tag. -/
def scrub (p : Policy) (tag : Tag) (a : Scalar) : Scalar :=
  p.finishScalar (tag.cleanScalar a)

theorem scrub_null : p.scrub tag .null = .null := rfl

theorem scrub_text (s : String) : p.scrub tag (.text s) = .text (p.finishText (tag.cleanText s)) :=
  rfl

/-- A scrubbed scalar is null or a cleaned text. -/
theorem scrub_cases (p : Policy) (tag : Tag) (a : Scalar) :
    p.scrub tag a = .null ∨ ∃ s, p.scrub tag a = .text (p.finishText (tag.cleanText s)) := by
  unfold scrub Tag.cleanScalar
  cases a.text? with
  | none => exact Or.inl rfl
  | some s => exact Or.inr ⟨s, rfl⟩

theorem finish_eq_map (p : Policy) (v : Value) : p.finish v = v.map p.finishScalar := by
  unfold finish
  cases htrims : p.trims with
  | true =>
    have hscalar : p.finishScalar = Value.trimScalar := by
      funext a
      cases a with
      | text s => simp [finishScalar, finishText, htrims, Value.trimScalar]
      | _ => rfl
    rw [hscalar]
    rfl
  | false =>
    have hscalar : p.finishScalar = id := by
      funext a
      cases a with
      | text s => simp [finishScalar, finishText, htrims]
      | _ => rfl
    rw [hscalar, Value.map_id]
    rfl

theorem finish_cleanse (p : Policy) (tag : Tag) (v : Value) :
    p.finish (tag.cleanse v) = v.map (p.scrub tag) := by
  rw [finish_eq_map]
  exact Value.map_map _ _ v

/-- Under the tag of a field, values of the wrong shape become null. -/
theorem finish_fit? (p : Policy) (tag : Tag) (v : Value) :
    p.finish ((tag.fit? v).getD .null) =
      if tag.Misfits v then .null else v.map (p.scrub tag) := by
  split
  · rename_i hmisfits
    rw [Tag.fit?_of_misfits hmisfits, Option.getD_none, finish_eq_map]
    rfl
  · rename_i hfits
    rw [Tag.fit?_of_not_misfits hfits, Option.getD_some, finish_cleanse]

/-! ### One field -/

/-- What a field with a value is cleaned to. -/
def cleanTo (p : Policy) (tags : Dict Tag) (field : String) (v : Value) : Value :=
  p.finish (p.cleanField tags field v)

theorem cleanTo_null (p : Policy) (tags : Dict Tag) (field : String) :
    p.cleanTo tags field .null = .null := by
  have hclean : p.cleanField tags field .null = .null := by
    unfold cleanField
    split
    · rfl
    · cases tags.get? field <;> rfl
  rw [cleanTo, hclean, finish]
  split <;> rfl

/-- A field that no tag covers is only trimmed. -/
theorem cleanTo_of_not_covers (h : resolve names = .ok tags)
    (hcovers : ∀ tag, ¬ p.Covers names field tag) (v : Value) :
    p.cleanTo tags field v = v.map p.finishScalar := by
  have hempty : tags.isEmpty = false := by
    rw [isEmpty_of_resolve h, ← Bool.not_eq_true]
    exact fun hnone => hcovers _ (.default hnone)
  have hget : tags.get? field = none := by
    cases hget : tags.get? field with
    | none => rfl
    | some tag =>
      obtain ⟨name, hfound, hknown⟩ := (get?_of_resolve h field tag).1 hget
      exact absurd (.named hfound hknown) (hcovers tag)
  rw [cleanTo, cleanField, hempty, hget, finish_eq_map]
  rfl

/-- If no field has a tag of its own, the default tag scrubs the scalars of every value. -/
theorem cleanTo_of_isEmpty (h : tags.isEmpty = true) (v : Value) :
    p.cleanTo tags field v = v.map (p.scrub p.defaultTag) := by
  rw [cleanTo, cleanField, if_pos h, finish_cleanse]

/-- A field with a tag of its own is cleaned by this tag, if the value has the right shape. -/
theorem cleanTo_of_own (h : tags.get? field = some tag) (v : Value) :
    p.cleanTo tags field v = p.finish ((tag.fit? v).getD .null) := by
  rw [cleanTo, cleanField, Dict.isEmpty_of_get? h, h]
  rfl

/-- **A covered field is cleaned to null or to its value with all scalars scrubbed.** -/
theorem cleanTo_of_covers (h : resolve names = .ok tags) (hcovers : p.Covers names field tag)
    (v : Value) :
    p.cleanTo tags field v = .null ∨ p.cleanTo tags field v = v.map (p.scrub tag) := by
  cases hcovers with
  | default none =>
    rw [← isEmpty_of_resolve h] at none
    exact Or.inr (cleanTo_of_isEmpty none v)
  | named found known =>
    have hown := (get?_of_resolve h field tag).2 ⟨_, found, known⟩
    rw [cleanTo_of_own hown, finish_fit?]
    split
    · exact Or.inl rfl
    · exact Or.inr rfl

/-- **Cleaning a covered field again scrubs its scalars again**, since its shape has been
accepted or it has become null. -/
theorem cleanTo_cleanTo (h : resolve names = .ok tags) (hcovers : p.Covers names field tag)
    (v : Value) :
    p.cleanTo tags field (p.cleanTo tags field v) =
      (p.cleanTo tags field v).map (p.scrub tag) := by
  cases hcovers with
  | default none =>
    rw [← isEmpty_of_resolve h] at none
    exact cleanTo_of_isEmpty none _
  | named found known =>
    have hown := (get?_of_resolve h field tag).2 ⟨_, found, known⟩
    have hfits : ¬ tag.Misfits (p.cleanTo tags field v) := by
      rw [cleanTo_of_own hown, finish_fit?]
      split
      · exact tag.not_misfits_null
      · rename_i hfits
        exact fun hmisfits => hfits (hmisfits.of_map scrub_null)
    rw [cleanTo_of_own hown, finish_fit?, if_neg hfits]

/-! ### Records -/

theorem get?_cleanWith (p : Policy) (tags : Dict Tag) (r : Record) (field : String) :
    (p.cleanWith tags r).get? field = (r.get? field).map (p.cleanTo tags field) :=
  Dict.get?_map _ r field

theorem keys_cleanWith (p : Policy) (tags : Dict Tag) (r : Record) :
    (p.cleanWith tags r).keys = r.keys :=
  List.map_map

theorem clean_eq_map (p : Policy) (names : Dict String) (r : Record) :
    p.clean names r = (resolve names).map fun tags => p.cleanWith tags r := by
  unfold clean
  cases resolve names <;> rfl

theorem clean_of_resolve (h : resolve names = .ok tags) (p : Policy) (r : Record) :
    p.clean names r = .ok (p.cleanWith tags r) := by
  rw [clean_eq_map, h]
  rfl

/-- Cleaning leaves a record as it is if it leaves every field as it is. -/
theorem cleanWith_eq_self_iff (p : Policy) (tags : Dict Tag) (r : Record) :
    p.cleanWith tags r = r ↔
      ∀ field v, r.get? field = some v → p.cleanTo tags field v = v :=
  Dict.map_eq_self_iff _ r

/-- A cleaned field is present if its cleaned value is not null. -/
theorem present?_cleanWith (p : Policy) (tags : Dict Tag) (r : Record) (field : String) :
    (p.cleanWith tags r).present? field =
      ((r.present? field).map (p.cleanTo tags field)).filter fun v => !v.isNull := by
  unfold Record.present?
  rw [get?_cleanWith]
  cases r.get? field with
  | none => rfl
  | some v =>
    by_cases hnull : v.isNull = true
    · obtain rfl := v.isNull_iff.1 hnull
      rw [Option.map_some, cleanTo_null]
      rfl
    · rw [Option.filter_some_pos (by simpa using hnull)]

/-- Records that agree on a field agree on it after cleaning. -/
theorem present?_cleanWith_congr (p : Policy) (tags : Dict Tag) {r₁ r₂ : Record}
    {field : String} (h : r₁.present? field = r₂.present? field) :
    (p.cleanWith tags r₁).present? field = (p.cleanWith tags r₂).present? field := by
  rw [present?_cleanWith, present?_cleanWith, h]

end Intake.Cleaning.Policy
