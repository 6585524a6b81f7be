import Intake.Value

/-!
# The scalars of a value

Cleaning and trimming change the scalars of a value and keep its shape.

* `Value.induct` is induction over the items of lists at every depth.
* `Value.scalars` lists the scalars of a value.
* `Value.map_eq_map_iff`: two changes agree on a value if and only if they agree on its
  scalars.
-/

namespace Intake.Value

/-- Induction over the items of lists at every depth. -/
@[elab_as_elim]
theorem induct {motive : Value → Prop} (scalar : ∀ a, motive (.scalar a))
    (list : ∀ items, (∀ v ∈ items, motive v) → motive (.list items)) (v : Value) :
    motive v := by
  match v with
  | .scalar a => exact scalar a
  | .list items => exact list items fun item _ => induct scalar list item
termination_by sizeOf v
decreasing_by
  have hitem := List.sizeOf_lt_of_mem ‹item ∈ items›
  simp only [Value.list.sizeOf_spec]
  omega

theorem isNull_iff (v : Value) : v.isNull = true ↔ v = .null := by
  constructor
  · intro h
    match v with
    | .scalar .null => rfl
  · rintro rfl
    rfl

/-! ### Changing scalars -/

variable (f g : Scalar → Scalar)

theorem map_scalar (a : Scalar) : (Value.scalar a).map f = .scalar (f a) := rfl

theorem map_list (items : List Value) :
    (Value.list items).map f = .list (items.map (Value.map f)) := by
  show Value.list (mapItems f items) = _
  congr 1
  induction items with
  | nil => rfl
  | cons v rest ih => rw [mapItems, ih, List.map_cons]

theorem isList_map (v : Value) : (v.map f).isList = v.isList := by
  cases v <;> rfl

theorem map_map (v : Value) : (v.map f).map g = v.map (g ∘ f) := by
  induction v using induct with
  | scalar a => rfl
  | list items ih =>
    rw [map_list, map_list, map_list, List.map_map]
    congr 1
    exact List.map_congr_left ih

theorem map_id (v : Value) : v.map id = v := by
  induction v using induct with
  | scalar a => rfl
  | list items ih =>
    rw [map_list]
    congr 1
    exact (List.map_congr_left ih).trans (List.map_id items)

/-! ### The scalars -/

mutual

/-- The scalars of a value at every depth, in order. -/
def scalars : Value → List Scalar
  | .scalar a => [a]
  | .list items => scalarsOfItems items

def scalarsOfItems : List Value → List Scalar
  | [] => []
  | v :: rest => v.scalars ++ scalarsOfItems rest

end

theorem scalars_scalar (a : Scalar) : (Value.scalar a).scalars = [a] := by
  rw [scalars]

theorem scalars_list (items : List Value) :
    (Value.list items).scalars = items.flatMap scalars := by
  rw [scalars]
  induction items with
  | nil => rw [scalarsOfItems, List.flatMap_nil]
  | cons v rest ih => rw [scalarsOfItems, ih, List.flatMap_cons]

theorem scalars_map (v : Value) : (v.map f).scalars = v.scalars.map f := by
  induction v using induct with
  | scalar a => rw [map_scalar, scalars_scalar, scalars_scalar, List.map_singleton]
  | list items ih =>
    rw [map_list, scalars_list, scalars_list, List.flatMap_map, List.map_flatMap]
    rw [List.flatMap_def, List.flatMap_def, List.map_congr_left ih]

/-- **Two changes agree on a value if and only if they agree on its scalars.** -/
theorem map_eq_map_iff (v : Value) : v.map f = v.map g ↔ ∀ a ∈ v.scalars, f a = g a := by
  induction v using induct with
  | scalar a =>
    rw [map_scalar, map_scalar, scalars_scalar]
    simp
  | list items ih =>
    rw [map_list, map_list, scalars_list, Value.list.injEq, List.map_inj_left]
    constructor
    · intro h a ha
      obtain ⟨v, hv, hav⟩ := List.mem_flatMap.1 ha
      exact (ih v hv).1 (h v hv) a hav
    · intro h v hv
      exact (ih v hv).2 fun a ha => h a (List.mem_flatMap.2 ⟨v, hv, ha⟩)

theorem map_eq_self_iff (v : Value) : v.map f = v ↔ ∀ a ∈ v.scalars, f a = a := by
  have h := map_eq_map_iff f id v
  rwa [map_id] at h

end Intake.Value
