/-!
# Key-ordered dictionaries

Records, rule strings, message templates and error messages are all finite maps from a
name to something.  Their order can be observed: it decides which of two problems is
reported first.  So a dictionary is the list of its entries in strictly increasing key
order, with that order as part of the type.

* `Dict.insert` and `Dict.erase` change one entry and keep the order; `Dict.place` is the
  work on the list.  `Dict.insertMany` stores several entries.
* `Dict.map`, `Dict.filterMap` and `Dict.mapExcept` go through the entries in key order.
-/

namespace Intake

/-- A finite map from names to values of type `α`.  The keys strictly increase in
code-point order, so none occurs twice and the representation is unique. -/
structure Dict (α : Type) where
  entries : List (String × α)
  /-- Every key is smaller than the keys after it. -/
  ordered : entries.Pairwise fun a b => a.1 < b.1

namespace Dict

variable {α β : Type}

instance [DecidableEq α] : DecidableEq (Dict α) := fun d e =>
  if h : d.entries = e.entries then
    isTrue (by cases d; cases e; simp_all)
  else
    isFalse fun he => h (by rw [he])

/-! ### Looking up -/

def get? (d : Dict α) (key : String) : Option α :=
  d.entries.lookup key

def contains (d : Dict α) (key : String) : Bool :=
  (d.get? key).isSome

def keys (d : Dict α) : List String :=
  d.entries.map (·.1)

def size (d : Dict α) : Nat :=
  d.entries.length

def isEmpty (d : Dict α) : Bool :=
  d.entries.isEmpty

/-! ### Building -/

def empty : Dict α :=
  ⟨[], List.Pairwise.nil⟩

instance : EmptyCollection (Dict α) := ⟨empty⟩

instance : Inhabited (Dict α) := ⟨empty⟩

/-- Puts an entry at its place in an ordered list, replacing one of the same key. -/
def place (key : String) (value : α) : List (String × α) → List (String × α)
  | [] => [(key, value)]
  | e :: rest =>
    if key < e.1 then (key, value) :: e :: rest
    else if e.1 < key then e :: place key value rest
    else (key, value) :: rest

theorem mem_place {key : String} {value : α} {entries : List (String × α)}
    {e : String × α} (h : e ∈ place key value entries) : e = (key, value) ∨ e ∈ entries := by
  induction entries with
  | nil => simpa [place] using h
  | cons head rest ih =>
    unfold place at h
    split at h
    · simpa using h
    · split at h
      · rcases List.mem_cons.1 h with rfl | h
        · exact Or.inr (List.mem_cons_self ..)
        · exact (ih h).imp_right (List.mem_cons_of_mem _)
      · rcases List.mem_cons.1 h with rfl | h
        · exact Or.inl rfl
        · exact Or.inr (List.mem_cons_of_mem _ h)

/-- A key that is neither smaller nor larger is the same key. -/
theorem eq_of_not_lt {a b : String} (h₁ : ¬ a < b) (h₂ : ¬ b < a) : a = b :=
  String.le_antisymm (String.not_lt.1 h₂) (String.not_lt.1 h₁)

theorem ordered_place (key : String) (value : α) {entries : List (String × α)}
    (h : entries.Pairwise fun a b => a.1 < b.1) :
    (place key value entries).Pairwise fun a b => a.1 < b.1 := by
  induction entries with
  | nil => simp [place]
  | cons head rest ih =>
    obtain ⟨hhead, hrest⟩ := List.pairwise_cons.1 h
    unfold place
    split
    · rename_i hlt
      refine List.pairwise_cons.2 ⟨fun e he => ?_, h⟩
      rcases List.mem_cons.1 he with rfl | he
      · exact hlt
      · exact String.lt_trans hlt (hhead e he)
    · rename_i hnot
      split
      · rename_i hlt
        refine List.pairwise_cons.2 ⟨fun e he => ?_, ih hrest⟩
        rcases mem_place he with rfl | he
        · exact hlt
        · exact hhead e he
      · rename_i hnot'
        refine List.pairwise_cons.2 ⟨fun e he => ?_, hrest⟩
        rw [eq_of_not_lt hnot hnot']
        exact hhead e he

/-- The dictionary with a value stored under a key. -/
def insert (d : Dict α) (key : String) (value : α) : Dict α :=
  ⟨place key value d.entries, ordered_place key value d.ordered⟩

def erase (d : Dict α) (key : String) : Dict α :=
  ⟨d.entries.filter fun e => e.1 != key, d.ordered.filter _⟩

/-- The dictionary with entries stored one after the other, of which the last with a key
counts. -/
def insertMany (d : Dict α) (entries : List (String × α)) : Dict α :=
  entries.foldl (fun d e => d.insert e.1 e.2) d

/-- The dictionary of a list of entries, of which the last with a key counts. -/
def ofList (entries : List (String × α)) : Dict α :=
  empty.insertMany entries

/-! ### Transforming -/

/-- Replaces every value by one computed from its key and itself. -/
def map (f : String → α → β) (d : Dict α) : Dict β :=
  ⟨d.entries.map fun e => (e.1, f e.1 e.2), List.pairwise_map.2 d.ordered⟩

/-- Keeps the entries to which `f` gives a value, with that value. -/
def filterMap (f : String → α → Option β) (d : Dict α) : Dict β where
  entries := d.entries.filterMap fun e => (f e.1 e.2).map (e.1, ·)
  ordered := by
    refine List.pairwise_filterMap.2 (d.ordered.imp fun h a ha b hb => ?_)
    obtain ⟨_, _, rfl⟩ := Option.map_eq_some_iff.1 ha
    obtain ⟨_, _, rfl⟩ := Option.map_eq_some_iff.1 hb
    exact h

/-- Computes a new value for every entry, in key order, stopping at the first failure. -/
def mapExcept {ε : Type} (f : String → α → Except ε β) (d : Dict α) : Except ε (Dict β) := do
  let entries ← d.entries.mapM fun e => return (e.1, ← f e.1 e.2)
  return ofList entries

end Dict

end Intake
