import Intake.Dict

/-!
# Laws of key-ordered dictionaries

What is observable about a dictionary is its look-up.

* `Dict.get?_insert`, `Dict.get?_map` and `Dict.get?_filterMap` say what
  each operation does to the look-up.
* `Dict.get?_insertMany` and `Dict.get?_ofList`: the last entry stored under a key counts.
* `Dict.mem_entries_iff`: the entries are exactly the look-ups; `Dict.mem_keys_iff`: the keys are
  what is found.
* `Dict.ext_get?`: equal look-ups make equal dictionaries.
-/

namespace Intake

namespace Dict

variable {α β : Type}

/-! ### What each operation does to the look-up -/

@[simp] theorem get?_empty (key : String) : (empty : Dict α).get? key = none := rfl

theorem lookup_cons_ite (key : String) (e : String × α) (rest : List (String × α)) :
    (e :: rest).lookup key = if key = e.1 then some e.2 else rest.lookup key := by
  rw [List.lookup_cons]
  by_cases h : key = e.1
  · simp [h]
  · simp [h, beq_eq_false_iff_ne.2 h]

theorem lookup_place (key : String) (value : α) (other : String) (entries : List (String × α)) :
    (place key value entries).lookup other =
      if other = key then some value else entries.lookup other := by
  induction entries with
  | nil => simp only [place, lookup_cons_ite]
  | cons head rest ih =>
    unfold place
    split
    · simp only [lookup_cons_ite]
    · rename_i hnot
      split
      · rename_i hlt
        rw [lookup_cons_ite, ih, lookup_cons_ite]
        by_cases h : other = key
        · subst h
          rw [if_neg (fun he => String.lt_irrefl _ (he ▸ hlt)), if_pos rfl, if_pos rfl]
        · simp [h]
      · rename_i hnot'
        have hkey : key = head.1 := eq_of_not_lt hnot hnot'
        simp only [lookup_cons_ite, ← hkey]
        by_cases h : other = key <;> simp [h]

/-- Storing a value changes the look-up of its key and of no other. -/
theorem get?_insert (d : Dict α) (key : String) (value : α) (other : String) :
    (d.insert key value).get? other = if other = key then some value else d.get? other :=
  lookup_place key value other d.entries

theorem contains_insert (d : Dict α) (key : String) (value : α) (other : String) :
    (d.insert key value).contains other = true ↔ other = key ∨ d.contains other = true := by
  unfold contains
  rw [get?_insert]
  by_cases h : other = key
  · simp [h]
  · simp [h]

/-- Looking up after `map` is mapping what was looked up. -/
theorem get?_map (f : String → α → β) (d : Dict α) (key : String) :
    (d.map f).get? key = (d.get? key).map (f key) := by
  show (d.entries.map fun e => (e.1, f e.1 e.2)).lookup key = _
  unfold get?
  induction d.entries with
  | nil => rfl
  | cons head rest ih =>
    rw [List.map_cons, lookup_cons_ite, lookup_cons_ite, ih]
    by_cases h : key = head.1 <;> simp [h]

/-- A key that comes before all keys of a list is not in it. -/
theorem lookup_eq_none_of_lt {key : String} {entries : List (String × α)}
    (h : ∀ e ∈ entries, key < e.1) : entries.lookup key = none := by
  induction entries with
  | nil => rfl
  | cons head rest ih =>
    have hne : key ≠ head.1 := fun he =>
      String.lt_irrefl key (he ▸ h head (List.mem_cons_self ..))
    rw [lookup_cons_ite, if_neg hne]
    exact ih fun e he => h e (List.mem_cons_of_mem _ he)

/-- Looking up after `filterMap` is filtering what was looked up. -/
theorem get?_filterMap (f : String → α → Option β) (d : Dict α) (key : String) :
    (d.filterMap f).get? key = (d.get? key).bind (f key) := by
  obtain ⟨entries, ordered⟩ := d
  unfold filterMap get?
  simp only
  induction entries with
  | nil => rfl
  | cons head rest ih =>
    obtain ⟨hhead, hrest⟩ := List.pairwise_cons.1 ordered
    rw [List.filterMap_cons, lookup_cons_ite]
    by_cases h : key = head.1
    · subst h
      rw [if_pos rfl, Option.bind_some]
      cases hf : f head.1 head.2 with
      | none =>
        simp only [Option.map_none, ih hrest, lookup_eq_none_of_lt hhead, Option.bind_none]
      | some v => simp
    · rw [if_neg h]
      cases hf : f head.1 head.2 with
      | none => simpa using ih hrest
      | some v => simpa [lookup_cons_ite, h] using ih hrest

theorem mem_of_lookup {key : String} {value : α} {entries : List (String × α)}
    (h : entries.lookup key = some value) : (key, value) ∈ entries := by
  induction entries with
  | nil => simp at h
  | cons head rest ih =>
    rw [lookup_cons_ite] at h
    split at h
    · rename_i hkey
      have hhead : head = (key, value) := Prod.ext hkey.symm (Option.some.inj h)
      rw [hhead]
      exact List.mem_cons_self ..
    · exact List.mem_cons_of_mem _ (ih h)

theorem lookup_of_mem {entries : List (String × α)}
    (ordered : entries.Pairwise fun a b => a.1 < b.1) {e : String × α} (h : e ∈ entries) :
    entries.lookup e.1 = some e.2 := by
  induction entries with
  | nil => simp at h
  | cons head rest ih =>
    obtain ⟨hhead, hrest⟩ := List.pairwise_cons.1 ordered
    rw [lookup_cons_ite]
    rcases List.mem_cons.1 h with rfl | h
    · simp
    · have hne : e.1 ≠ head.1 := fun he => String.lt_irrefl _ (he ▸ hhead e h)
      rw [if_neg hne, ih hrest h]

/-- The entries of a dictionary are exactly its look-ups. -/
theorem mem_entries_iff (d : Dict α) (e : String × α) :
    e ∈ d.entries ↔ d.get? e.1 = some e.2 :=
  ⟨lookup_of_mem d.ordered, mem_of_lookup⟩

theorem ordered_keys (d : Dict α) : d.keys.Pairwise (· < ·) :=
  List.pairwise_map.2 d.ordered

theorem mem_keys_iff (d : Dict α) (key : String) : key ∈ d.keys ↔ (d.get? key).isSome = true := by
  rw [keys, List.mem_map, Option.isSome_iff_exists]
  constructor
  · rintro ⟨e, he, rfl⟩
    exact ⟨e.2, (d.mem_entries_iff e).1 he⟩
  · rintro ⟨value, hvalue⟩
    exact ⟨(key, value), (d.mem_entries_iff (key, value)).2 hvalue, rfl⟩

theorem entries_ext {d e : List (String × α)} (hd : d.Pairwise fun a b => a.1 < b.1)
    (he : e.Pairwise fun a b => a.1 < b.1) (h : ∀ key, d.lookup key = e.lookup key) :
    d = e := by
  induction d generalizing e with
  | nil =>
    cases e with
    | nil => rfl
    | cons head rest => simpa [lookup_cons_ite] using h head.1
  | cons head rest ih =>
    cases e with
    | nil => simpa [lookup_cons_ite] using h head.1
    | cons head' rest' =>
      obtain ⟨hhead, hrest⟩ := List.pairwise_cons.1 hd
      obtain ⟨hhead', hrest'⟩ := List.pairwise_cons.1 he
      have hmem : head ∈ head' :: rest' :=
        mem_of_lookup ((h head.1).symm.trans (by simp [lookup_cons_ite]))
      have hmem' : head' ∈ head :: rest :=
        mem_of_lookup ((h head'.1).trans (by simp [lookup_cons_ite]))
      have hsame : head = head' := by
        rcases List.mem_cons.1 hmem with heq | hin
        · exact heq
        · rcases List.mem_cons.1 hmem' with heq | hin'
          · exact heq.symm
          · exact absurd (String.lt_trans (hhead' _ hin) (hhead _ hin')) (String.lt_irrefl _)
      subst hsame
      have hrests : rest = rest' := by
        refine ih hrest hrest' fun key => ?_
        have hkey := h key
        rw [lookup_cons_ite, lookup_cons_ite] at hkey
        by_cases heq : key = head.1
        · rw [heq, lookup_eq_none_of_lt hhead, lookup_eq_none_of_lt hhead']
        · simpa [heq] using hkey
      rw [hrests]

/-! ### Storing several entries -/

/-- After storing several entries, the last of them with a key counts. -/
theorem get?_insertMany (d : Dict α) (entries : List (String × α)) (key : String) :
    (d.insertMany entries).get? key = (entries.reverse.lookup key).or (d.get? key) := by
  induction entries generalizing d with
  | nil => rfl
  | cons e rest ih =>
    show ((d.insert e.1 e.2).insertMany rest).get? key = _
    rw [ih, get?_insert, List.reverse_cons, List.lookup_append, Option.or_assoc,
      lookup_cons_ite, List.lookup_nil]
    by_cases h : key = e.1
    · rw [if_pos h, if_pos h, Option.some_or]
    · rw [if_neg h, if_neg h, Option.none_or]

/-- The order of the entries of a dictionary does not matter to the look-up. -/
theorem lookup_reverse_entries (d : Dict α) (key : String) :
    d.entries.reverse.lookup key = d.get? key := by
  obtain ⟨entries, ordered⟩ := d
  show entries.reverse.lookup key = entries.lookup key
  induction entries with
  | nil => rfl
  | cons e rest ih =>
    obtain ⟨hhead, hrest⟩ := List.pairwise_cons.1 ordered
    rw [List.reverse_cons, List.lookup_append, ih hrest, lookup_cons_ite, List.lookup_nil,
      lookup_cons_ite]
    by_cases h : key = e.1
    · subst h
      rw [lookup_eq_none_of_lt hhead, Option.none_or]
    · rw [if_neg h, if_neg h, Option.or_none]

/-- Storing the entries of a second dictionary puts its look-ups before those of the first. -/
theorem get?_insertMany_entries (d e : Dict α) (key : String) :
    (d.insertMany e.entries).get? key = (e.get? key).or (d.get? key) := by
  rw [get?_insertMany, lookup_reverse_entries]

/-- Of a list of entries the last with a key counts. -/
theorem get?_ofList (entries : List (String × α)) (key : String) :
    (ofList entries).get? key = entries.reverse.lookup key := by
  show ((empty : Dict α).insertMany entries).get? key = _
  rw [get?_insertMany, get?_empty, Option.or_none]

theorem get?_ofList_singleton (key : String) (value : α) (other : String) :
    (ofList [(key, value)]).get? other = if other = key then some value else none := by
  rw [get?_ofList, List.reverse_singleton, lookup_cons_ite, List.lookup_nil]

/-- Looking up finds the first entry with the key. -/
theorem lookup_eq_head?_filter (entries : List (String × α)) (key : String) :
    entries.lookup key = (entries.filter (·.1 == key)).head?.map (·.2) := by
  induction entries with
  | nil => rfl
  | cons e rest ih =>
    rw [lookup_cons_ite]
    by_cases h : key = e.1
    · rw [if_pos h, List.filter_cons_of_pos (by simp [h])]
      rfl
    · rw [if_neg h, List.filter_cons_of_neg (by simp [Ne.symm h]), ih]

/-- Of a list of entries the last with a key counts. -/
theorem get?_ofList_eq_getLast? (entries : List (String × α)) (key : String) :
    (ofList entries).get? key = (entries.filter (·.1 == key)).getLast?.map (·.2) := by
  rw [get?_ofList, lookup_eq_head?_filter, List.filter_reverse, List.head?_reverse]

theorem insertMany_append (d : Dict α) (front back : List (String × α)) :
    d.insertMany (front ++ back) = (d.insertMany front).insertMany back :=
  List.foldl_append

/-! ### Extensionality -/

/-- **Equal look-ups make equal dictionaries.** -/
theorem ext_get? {d e : Dict α} (h : ∀ key, d.get? key = e.get? key) : d = e := by
  have hentries : d.entries = e.entries := entries_ext d.ordered e.ordered h
  cases d
  cases e
  simp_all

/-- Entries in order are a dictionary as they are. -/
theorem ofList_eq_of_ordered {entries : List (String × α)}
    (ordered : entries.Pairwise fun a b => a.1 < b.1) : ofList entries = ⟨entries, ordered⟩ := by
  apply ext_get?
  intro key
  rw [get?_ofList]
  exact lookup_reverse_entries ⟨entries, ordered⟩ key

theorem isEmpty_iff (d : Dict α) : d.isEmpty = true ↔ ∀ key, d.get? key = none := by
  constructor
  · intro h key
    have hentries : d.entries = [] := List.isEmpty_iff.1 h
    rw [get?, hentries]
    rfl
  · intro h
    refine List.isEmpty_iff.2 (List.eq_nil_iff_forall_not_mem.2 fun e he => ?_)
    rw [mem_entries_iff, h] at he
    cases he

theorem isEmpty_of_get? {d : Dict α} {key : String} {value : α} (h : d.get? key = some value) :
    d.isEmpty = false := by
  rw [← Bool.not_eq_true, isEmpty_iff]
  intro hnone
  rw [hnone key] at h
  cases h

/-- Changing the values leaves a dictionary as it is if every value is left as it is. -/
theorem map_eq_self_iff (f : String → α → α) (d : Dict α) :
    d.map f = d ↔ ∀ key value, d.get? key = some value → f key value = value := by
  constructor
  · intro h key value hget
    have hmap := get?_map f d key
    rw [h, hget, Option.map_some] at hmap
    exact (Option.some.inj hmap).symm
  · intro h
    apply ext_get?
    intro key
    rw [get?_map]
    cases hget : d.get? key with
    | none => rfl
    | some value => rw [Option.map_some, h key value hget]

end Dict

end Intake
