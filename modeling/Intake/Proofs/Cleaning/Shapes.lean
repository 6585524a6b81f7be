import Mathlib.Data.List.Forall2
import Intake.Cleaning.Tag
import Intake.Proofs.Value.Scalars

/-!
# Shapes of cleaned values

What a tag makes of a value has the shape of the value, null where it has null, and cleaned
texts for its other scalars.  Some shapes a tag refuses: lists where it wants none, and all but
lists where it wants one.

* `Value.Matches` relates the scalars of two values of one shape, and
  `Value.map_eq_iff_matches` describes a change of scalars by it.
* `Tag.Cleans`: a scalar and what a tag makes of it; `Tag.cleanse_eq_iff` is about all scalars
  of a value.
* `Tag.Misfits`: the values that a tag refuses, as `Tag.fit?_eq_none_iff` says.
-/

namespace Intake

/-! ### Values of one shape -/

/-- Two values of one shape with related scalars: lists have as many items and the items match,
so that every scalar is related to the one in its place. -/
inductive Value.Matches (R : Scalar → Scalar → Prop) : Value → Value → Prop where
  | scalar {a b : Scalar} (related : R a b) : Matches R (.scalar a) (.scalar b)
  | list {items others : List Value} (each : List.Forall₂ (Matches R) items others) :
      Matches R (.list items) (.list others)

/-- **A change of scalars keeps the shape of a value**, and its result is the only value that
matches. -/
theorem Value.map_eq_iff_matches {f : Scalar → Scalar} {R : Scalar → Scalar → Prop}
    (h : ∀ a b, f a = b ↔ R a b) (v w : Value) : v.map f = w ↔ v.Matches R w := by
  induction v using induct generalizing w with
  | scalar a =>
    rw [map_scalar]
    constructor
    · rintro rfl
      exact .scalar ((h a _).1 rfl)
    · intro hmatches
      cases hmatches with
      | scalar related => rw [(h a _).2 related]
  | list items ih =>
    rw [map_list]
    constructor
    · rintro rfl
      refine .list ?_
      rw [List.forall₂_map_right_iff, List.forall₂_same]
      intro v hv
      exact (ih v hv _).1 rfl
    · intro hmatches
      cases hmatches with
      | @list _ others each =>
        -- item by item the other value is what the change makes of this one
        have hitems : List.Forall₂ (fun v w => v.map f = w) items others :=
          ((List.forall₂_and_left _ _).2 ⟨ih, each⟩).imp fun v w hvw => (hvw.1 w).2 hvw.2
        have hothers : items.map (Value.map f) = others := by
          rwa [← List.forall₂_eq_eq_eq, List.forall₂_map_left_iff]
        rw [hothers]

namespace Cleaning.Tag

/-! ### What a tag makes of a value -/

/-- A scalar and what a tag makes of it: null stays, and every other scalar becomes its text,
cleaned. -/
inductive Cleans (tag : Tag) : Scalar → Scalar → Prop where
  | null : Cleans tag .null .null
  | text {a : Scalar} {s : String} (written : a.text? = some s) :
      Cleans tag a (.text (tag.cleanText s))

theorem cleanScalar_eq_iff (tag : Tag) (a b : Scalar) :
    tag.cleanScalar a = b ↔ tag.Cleans a b := by
  constructor
  · rintro rfl
    cases a with
    | null => exact .null
    | _ => exact .text rfl
  · intro hcleans
    cases hcleans with
    | null => rfl
    | text written => rw [cleanScalar, written]

/-- **The cleaned value is the one of the same shape with the cleaned texts in it.** -/
theorem cleanse_eq_iff (tag : Tag) (v w : Value) : tag.cleanse v = w ↔ v.Matches tag.Cleans w :=
  Value.map_eq_iff_matches tag.cleanScalar_eq_iff v w

/-! ### Shapes that a tag refuses -/

/-- The value is a list and the tag wants none, or the other way round.  Null suits every tag. -/
structure Misfits (tag : Tag) (v : Value) : Prop where
  given : v ≠ .null
  shape : v.isList ≠ tag.wantsList

theorem misfits_iff (tag : Tag) (v : Value) :
    tag.Misfits v ↔ (v.isNull || v.isList == tag.wantsList) = false := by
  rw [Bool.or_eq_false_iff, beq_eq_false_iff_ne, ← Bool.not_eq_true, Value.isNull_iff]
  exact ⟨fun h => ⟨h.given, h.shape⟩, fun h => ⟨h.1, h.2⟩⟩

instance (tag : Tag) (v : Value) : Decidable (tag.Misfits v) :=
  decidable_of_iff _ (tag.misfits_iff v).symm

theorem fit?_of_misfits {tag : Tag} {v : Value} (h : tag.Misfits v) : tag.fit? v = none := by
  rw [fit?, (tag.misfits_iff v).1 h]
  rfl

theorem fit?_of_not_misfits {tag : Tag} {v : Value} (h : ¬ tag.Misfits v) :
    tag.fit? v = some (tag.cleanse v) := by
  rw [misfits_iff, Bool.not_eq_false] at h
  rw [fit?, if_pos h]

/-- **A tag refuses the values of the wrong shape and no others.** -/
theorem fit?_eq_none_iff (tag : Tag) (v : Value) : tag.fit? v = none ↔ tag.Misfits v := by
  constructor
  · intro hnone
    by_contra hfits
    rw [fit?_of_not_misfits hfits] at hnone
    cases hnone
  · exact fit?_of_misfits

theorem not_misfits_null (tag : Tag) : ¬ tag.Misfits .null :=
  fun h => h.given rfl

/-- A value that is refused after a change of its scalars has been refused before, if the change
keeps null. -/
theorem Misfits.of_map {tag : Tag} {v : Value} {f : Scalar → Scalar} (hnull : f .null = .null)
    (h : tag.Misfits (v.map f)) : tag.Misfits v where
  given := by
    rintro rfl
    exact h.given (congrArg Value.scalar hnull)
  shape := by
    rw [← Value.isList_map f v]
    exact h.shape

end Cleaning.Tag

end Intake
