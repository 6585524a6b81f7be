import Mathlib.Data.List.Forall2
import Intake.Dict.Lemmas

/-!
# The first failure

Chains are compiled, tags are resolved and tokens are read one after the other, and the
first failure ends it.

* `FirstFailure f items e` says that `f` fails with `e` on one item and succeeds on all
  items before it.
* `firstFailure_iff_find?`: if failing can be told in advance, the first failure is found.
* `mapM_eq_ok_iff` and `mapM_eq_error_iff`: going through a list succeeds with the result of
  every item, or fails with the first failure.  `mem_iff_of_mapM_eq_ok`: the results are what the
  items give.
* `mapExcept_eq_error_iff` and `get?_of_mapExcept` say the same of the entries of a dictionary.
-/

namespace Intake

variable {α β ε : Type}

/-- The first of the items that `f` fails on fails with `e`. -/
def FirstFailure (f : α → Except ε β) (items : List α) (e : ε) : Prop :=
  ∃ before a after, items = before ++ a :: after ∧ (∀ b ∈ before, ∃ c, f b = .ok c) ∧
    f a = .error e

namespace FirstFailure

theorem not_nil {f : α → Except ε β} {e : ε} : ¬ FirstFailure f [] e := by
  rintro ⟨before, a, after, hitems, -, -⟩
  exact absurd hitems (by simp)

theorem cons_of_error {f : α → Except ε β} {a : α} {e : ε} (h : f a = .error e)
    (rest : List α) (e' : ε) : FirstFailure f (a :: rest) e' ↔ e = e' := by
  constructor
  · rintro ⟨before, b, after, hitems, hbefore, hb⟩
    cases before with
    | nil =>
      obtain ⟨rfl, -⟩ := List.cons.inj hitems
      rw [h] at hb
      exact Except.error.inj hb
    | cons c before =>
      obtain ⟨rfl, -⟩ := List.cons.inj hitems
      obtain ⟨d, hd⟩ := hbefore a (List.mem_cons_self ..)
      rw [h] at hd
      cases hd
  · rintro rfl
    exact ⟨[], a, rest, rfl, by simp, h⟩

theorem cons_of_ok {f : α → Except ε β} {a : α} {b : β} (h : f a = .ok b)
    (rest : List α) (e : ε) : FirstFailure f (a :: rest) e ↔ FirstFailure f rest e := by
  constructor
  · rintro ⟨before, c, after, hitems, hbefore, hc⟩
    cases before with
    | nil =>
      obtain ⟨rfl, -⟩ := List.cons.inj hitems
      rw [h] at hc
      cases hc
    | cons d before =>
      obtain ⟨-, hrest⟩ := List.cons.inj hitems
      exact ⟨before, c, after, hrest, fun x hx => hbefore x (List.mem_cons_of_mem _ hx), hc⟩
  · rintro ⟨before, c, after, rfl, hbefore, hc⟩
    refine ⟨a :: before, c, after, rfl, ?_, hc⟩
    intro x hx
    rcases List.mem_cons.1 hx with rfl | hx
    · exact ⟨b, h⟩
    · exact hbefore x hx

theorem exists_mem {f : α → Except ε β} {items : List α} {e : ε}
    (h : FirstFailure f items e) : ∃ a ∈ items, f a = .error e := by
  obtain ⟨before, a, after, rfl, -, ha⟩ := h
  exact ⟨a, by simp, ha⟩

end FirstFailure

/-- The first failure is that of the first item that fails. -/
theorem firstFailure_iff_find? {f : α → Except ε β} {items : List α} {fails : α → Bool}
    (hfails : ∀ a ∈ items, fails a = true ↔ ∃ e, f a = .error e) (e : ε) :
    FirstFailure f items e ↔ ∃ a, items.find? fails = some a ∧ f a = .error e := by
  have hsucceeds : ∀ a ∈ items, (!fails a) = true ↔ ∃ b, f a = .ok b := by
    intro a ha
    rw [Bool.not_eq_true', ← Bool.not_eq_true, hfails a ha]
    cases f a <;> simp
  constructor
  · rintro ⟨before, a, after, rfl, hbefore, ha⟩
    refine ⟨a, List.find?_eq_some_iff_append.2 ⟨?_, before, after, rfl, ?_⟩, ha⟩
    · exact (hfails a (by simp)).2 ⟨e, ha⟩
    · intro b hb
      exact (hsucceeds b (by simp [hb])).2 (hbefore b hb)
  · rintro ⟨a, hfind, ha⟩
    obtain ⟨-, before, after, rfl, hbefore⟩ := List.find?_eq_some_iff_append.1 hfind
    refine ⟨before, a, after, rfl, ?_, ha⟩
    intro b hb
    exact (hsucceeds b (by simp [hb])).1 (hbefore b hb)

/-- The first result is that of the first item that has one. -/
theorem findSome?_eq_some_iff_find? (g : α → Option β) (items : List α) (b : β) :
    items.findSome? g = some b ↔
      ∃ a, items.find? (fun a => (g a).isSome) = some a ∧ g a = some b := by
  induction items with
  | nil => simp
  | cons a rest ih =>
    cases ha : g a with
    | none => simp [ha, ih]
    | some c => simp [ha]

/-! ### Results -/

theorem map_eq_error_iff {γ : Type} (x : Except ε β) (g : β → γ) (e : ε) :
    x.map g = .error e ↔ x = .error e := by
  cases x with
  | error e' =>
    constructor
    · intro h
      exact congrArg Except.error (Except.error.inj h)
    · intro h
      exact congrArg Except.error (Except.error.inj h)
  | ok b =>
    constructor
    · intro h
      cases h
    · intro h
      cases h

theorem map_eq_ok_iff {γ : Type} (x : Except ε β) (g : β → γ) (c : γ) :
    x.map g = .ok c ↔ ∃ b, x = .ok b ∧ g b = c := by
  cases x with
  | error e =>
    refine ⟨fun h => (by cases h), fun h => ?_⟩
    obtain ⟨b, hb, -⟩ := h
    cases hb
  | ok b =>
    refine ⟨fun h => ⟨b, rfl, Except.ok.inj h⟩, fun h => ?_⟩
    obtain ⟨b', hb, hc⟩ := h
    rw [← Except.ok.inj hb] at hc
    exact congrArg Except.ok hc

theorem exists_map_eq_ok_iff {γ : Type} (x : Except ε β) (g : β → γ) :
    (∃ c, x.map g = .ok c) ↔ ∃ b, x = .ok b := by
  simp only [map_eq_ok_iff]
  refine ⟨fun h => ?_, fun h => ?_⟩
  · obtain ⟨c, b, hb, -⟩ := h
    exact ⟨b, hb⟩
  · obtain ⟨b, hb⟩ := h
    exact ⟨g b, b, hb, rfl⟩

/-- What is made of the results does not matter to the first failure. -/
theorem firstFailure_map_iff {γ : Type} (f : α → Except ε β) (g : α → β → γ) (items : List α)
    (e : ε) : FirstFailure (fun a => (f a).map (g a)) items e ↔ FirstFailure f items e := by
  simp only [FirstFailure, exists_map_eq_ok_iff, map_eq_error_iff]

theorem exists_eq_ok_of_isOk {x : Except ε β} (h : x.isOk = true) : ∃ b, x = .ok b := by
  cases x with
  | error e => cases h
  | ok b => exact ⟨b, rfl⟩

/-! ### Going through a list -/

theorem mapM_cons_of_error {f : α → Except ε β} {a : α} {e : ε} (h : f a = .error e)
    (rest : List α) : (a :: rest).mapM f = .error e := by
  rw [List.mapM_cons, h]
  rfl

theorem mapM_cons_of_ok {f : α → Except ε β} {a : α} {b : β} (h : f a = .ok b)
    (rest : List α) : (a :: rest).mapM f = (rest.mapM f).map (b :: ·) := by
  rw [List.mapM_cons, h]
  cases rest.mapM f <;> rfl

/-- **Going through a list fails with the first failure.** -/
theorem mapM_eq_error_iff (f : α → Except ε β) (items : List α) (e : ε) :
    items.mapM f = .error e ↔ FirstFailure f items e := by
  induction items with
  | nil =>
    constructor
    · intro h
      cases h
    · intro h
      exact absurd h FirstFailure.not_nil
  | cons a rest ih =>
    cases ha : f a with
    | error e' =>
      rw [mapM_cons_of_error ha, FirstFailure.cons_of_error ha]
      exact ⟨fun h => Except.error.inj h, fun h => congrArg Except.error h⟩
    | ok b =>
      rw [mapM_cons_of_ok ha, map_eq_error_iff, FirstFailure.cons_of_ok ha, ih]

theorem firstFailure_map_items {γ : Type} (f : α → Except ε β) (g : γ → α) (items : List γ)
    (e : ε) : FirstFailure f (items.map g) e ↔ FirstFailure (fun c => f (g c)) items e := by
  rw [← mapM_eq_error_iff, List.mapM_map, mapM_eq_error_iff]
  rfl

/-- **Going through a list succeeds with the result of every item.** -/
theorem mapM_eq_ok_iff (f : α → Except ε β) (items : List α) (out : List β) :
    items.mapM f = .ok out ↔ List.Forall₂ (fun a b => f a = .ok b) items out := by
  induction items generalizing out with
  | nil =>
    rw [List.forall₂_nil_left_iff]
    constructor
    · intro h
      exact (Except.ok.inj h).symm
    · rintro rfl
      rfl
  | cons a rest ih =>
    rw [List.forall₂_cons_left_iff]
    cases ha : f a with
    | error e =>
      rw [mapM_cons_of_error ha]
      constructor
      · intro h
        cases h
      · rintro ⟨b, out', hb, -, -⟩
        cases hb
    | ok b =>
      rw [mapM_cons_of_ok ha]
      constructor
      · intro h
        cases hrest : rest.mapM f with
        | error e =>
          rw [hrest] at h
          cases h
        | ok out' =>
          rw [hrest] at h
          exact ⟨b, out', rfl, (ih out').1 hrest, (Except.ok.inj h).symm⟩
      · rintro ⟨b', out', hb, hrest, rfl⟩
        rw [(ih out').2 hrest, Except.ok.inj hb]
        rfl

/-- Every item on the right of a pointwise relation is related to one on the left. -/
theorem exists_left_of_mem_right {R : α → β → Prop} {items : List α} {out : List β}
    (h : List.Forall₂ R items out) {b : β} (hb : b ∈ out) : ∃ a ∈ items, R a b := by
  induction h with
  | nil => exact absurd hb (List.not_mem_nil)
  | cons hab _ ih =>
    rcases List.mem_cons.1 hb with rfl | hb
    · exact ⟨_, List.mem_cons_self .., hab⟩
    · obtain ⟨a, ha, hr⟩ := ih hb
      exact ⟨a, List.mem_cons_of_mem _ ha, hr⟩

theorem exists_mem_of_mapM_eq_ok {f : α → Except ε β} {items : List α} {out : List β}
    (h : items.mapM f = .ok out) {b : β} (hb : b ∈ out) : ∃ a ∈ items, f a = .ok b :=
  exists_left_of_mem_right ((mapM_eq_ok_iff f items out).1 h) hb

theorem exists_result_of_mapM_eq_ok {f : α → Except ε β} {items : List α} {out : List β}
    (h : items.mapM f = .ok out) {a : α} (ha : a ∈ items) : ∃ b ∈ out, f a = .ok b := by
  have hflip : List.Forall₂ (flip fun a b => f a = .ok b) out items :=
    ((mapM_eq_ok_iff f items out).1 h).flip
  exact exists_left_of_mem_right hflip ha

/-- The results are exactly what the items give. -/
theorem mem_iff_of_mapM_eq_ok {f : α → Except ε β} {items : List α} {out : List β}
    (h : items.mapM f = .ok out) (b : β) : b ∈ out ↔ ∃ a ∈ items, f a = .ok b := by
  refine ⟨fun hb => exists_mem_of_mapM_eq_ok h hb, fun hb => ?_⟩
  obtain ⟨a, ha, hab⟩ := hb
  obtain ⟨b', hb', hab'⟩ := exists_result_of_mapM_eq_ok h ha
  obtain rfl : b' = b := Except.ok.inj (hab'.symm.trans hab)
  exact hb'

theorem exists_mapM_eq_ok_iff (f : α → Except ε β) (items : List α) :
    (∃ out, items.mapM f = .ok out) ↔ ∀ a ∈ items, ∃ b, f a = .ok b := by
  constructor
  · rintro ⟨out, h⟩ a ha
    obtain ⟨b, -, hb⟩ := exists_result_of_mapM_eq_ok h ha
    exact ⟨b, hb⟩
  · intro h
    cases hm : items.mapM f with
    | ok out => exact ⟨out, rfl⟩
    | error e =>
      obtain ⟨a, ha, hfa⟩ := ((mapM_eq_error_iff f items e).1 hm).exists_mem
      obtain ⟨b, hb⟩ := h a ha
      rw [hfa] at hb
      cases hb

/-! ### Going through a dictionary -/

theorem mapM_map_result {γ : Type} (f : α → Except ε β) (g : α → β → γ) (items : List α) :
    items.mapM (fun a => (f a).map (g a)) = (items.mapM f).map (List.zipWith g items) := by
  induction items with
  | nil => rfl
  | cons a rest ih =>
    cases ha : f a with
    | error e =>
      rw [mapM_cons_of_error ha, mapM_cons_of_error (e := e) (by rw [ha]; rfl)]
      rfl
    | ok b =>
      rw [mapM_cons_of_ok ha, mapM_cons_of_ok (b := g a b) (by rw [ha]; rfl), ih]
      cases rest.mapM f <;> rfl

/-- Going through a dictionary is going through its entries. -/
theorem mapExcept_eq (f : String → α → Except ε β) (d : Dict α) :
    d.mapExcept f = (d.entries.mapM fun e => f e.1 e.2).map fun out =>
      Dict.ofList (List.zipWith (fun e b => (e.1, b)) d.entries out) := by
  show (d.entries.mapM fun e => (f e.1 e.2).map (e.1, ·)).map Dict.ofList = _
  rw [mapM_map_result (fun e : String × α => f e.1 e.2) (fun e b => (e.1, b))]
  cases d.entries.mapM fun e => f e.1 e.2 <;> rfl

theorem mapExcept_eq_error_iff (f : String → α → Except ε β) (d : Dict α) (e : ε) :
    d.mapExcept f = .error e ↔ FirstFailure (fun entry => f entry.1 entry.2) d.entries e := by
  rw [mapExcept_eq, map_eq_error_iff, mapM_eq_error_iff]

theorem exists_mapExcept_eq_ok_iff (f : String → α → Except ε β) (d : Dict α) :
    (∃ out, d.mapExcept f = .ok out) ↔ ∀ entry ∈ d.entries, ∃ b, f entry.1 entry.2 = .ok b := by
  rw [mapExcept_eq, exists_map_eq_ok_iff, exists_mapM_eq_ok_iff]

/-- **Going through a dictionary succeeds with the result of every entry.** -/
theorem forall₂_of_mapExcept {f : String → α → Except ε β} {d : Dict α} {out : Dict β}
    (h : d.mapExcept f = .ok out) :
    List.Forall₂ (fun e o => o.1 = e.1 ∧ f e.1 e.2 = .ok o.2) d.entries out.entries := by
  have hrun : d.mapExcept f =
      (d.entries.mapM fun e => (f e.1 e.2).map (e.1, ·)).map Dict.ofList := rfl
  rw [hrun] at h
  cases hm : d.entries.mapM fun e => (f e.1 e.2).map (e.1, ·) with
  | error e =>
    rw [hm] at h
    cases h
  | ok pairs =>
    rw [hm] at h
    have hpairs : List.Forall₂ (fun e o => o.1 = e.1 ∧ f e.1 e.2 = .ok o.2) d.entries pairs := by
      refine ((mapM_eq_ok_iff _ _ _).1 hm).imp ?_
      intro e o he
      cases hf : f e.1 e.2 with
      | error problem =>
        rw [hf] at he
        cases he
      | ok b =>
        rw [hf] at he
        rw [← Except.ok.inj he]
        exact ⟨rfl, rfl⟩
    -- the keys stay as they are, and so does their order
    have hordered : pairs.Pairwise fun a b => a.1 < b.1 := by
      have hkeys : pairs.map (·.1) = d.entries.map (·.1) := by
        clear hrun h hm
        generalize d.entries = entries at hpairs ⊢
        induction hpairs with
        | nil => rfl
        | cons ho _ ih => rw [List.map_cons, List.map_cons, ho.1, ih]
      have hmap : (d.entries.map (·.1)).Pairwise (· < ·) := List.pairwise_map.2 d.ordered
      rw [← hkeys] at hmap
      exact List.pairwise_map.1 hmap
    have hout : out = ⟨pairs, hordered⟩ := by
      rw [← Except.ok.inj h]
      exact Dict.ofList_eq_of_ordered hordered
    rw [hout]
    exact hpairs

theorem get?_of_mapExcept {f : String → α → Except ε β} {d : Dict α} {out : Dict β}
    (h : d.mapExcept f = .ok out) (key : String) (b : β) :
    out.get? key = some b ↔ ∃ a, d.get? key = some a ∧ f key a = .ok b := by
  have hout := forall₂_of_mapExcept h
  constructor
  · intro hget
    obtain ⟨e, he, hkey, hf⟩ :=
      exists_left_of_mem_right hout ((out.mem_entries_iff (key, b)).2 hget)
    obtain rfl : key = e.1 := hkey
    exact ⟨e.2, (d.mem_entries_iff e).1 he, hf⟩
  · rintro ⟨a, hget, hf⟩
    obtain ⟨o, ho, hkey, hf'⟩ :=
      exists_left_of_mem_right hout.flip ((d.mem_entries_iff (key, a)).2 hget)
    obtain rfl : o.2 = b := Except.ok.inj (hf'.symm.trans hf)
    rw [← (out.mem_entries_iff o).1 ho, show o.1 = key from hkey]

end Intake
