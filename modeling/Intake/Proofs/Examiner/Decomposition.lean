import Mathlib.Data.List.Nodup
import Intake.Phone.Plans
import Intake.Proofs.Examiner.Compiling
import Intake.Proofs.Examiner.Rejections

/-!
# Examining field by field

Every field has one chain, and what this chain gives does not depend on the chains of other
fields.  So examining can be taken apart into examinations of single chains, whose failures
put together in any order are those of all chains.

* `Examiner.get?_examine_filter`: a field is examined by its own chains.
* `Examiner.get?_examine_iff_of_nodup`: if every field has one chain, the failures are those of
  the chains examined alone, and `Examiner.examine_perm` that their order does not matter.
* `Examiner.get?_examine_of_compile` and `Examiner.get?_examine_of_call`: the message of a field
  whose chain has been compiled; `Examiner.contains_examine_iff`: whether there is one.
* `Examiner.validate_decomposes`: validating is validating the chain of each field alone.
-/

namespace Intake

open Rule Message

theorem Dict.nodup_keys {α : Type} (d : Dict α) : d.keys.Nodup := by
  refine List.pairwise_map.2 (d.ordered.imp ?_)
  intro a b hlt hsame
  rw [hsame] at hlt
  exact String.lt_irrefl _ hlt

namespace Examiner

variable {x : Examiner} {texts : Dict String} {chains : List Chain} {field text : String}
  {chain : Chain}

/-! ### The chains of a field -/

/-- The rejections of a field are those of its chains. -/
theorem filter_rejected (x : Examiner) (today : Date) (r : Record) (chains : List Chain)
    (field : String) :
    (x.rejected today r chains).filter (·.1 == field) =
      x.rejected today r (chains.filter (·.field == field)) := by
  have huses : (uses chains).filter (·.1 == field) = uses (chains.filter (·.field == field)) := by
    unfold uses
    induction chains with
    | nil => rfl
    | cons chain rest ih =>
      rw [List.flatMap_cons, List.filter_append, ih, List.filter_map]
      by_cases hfield : chain.field = field
      · rw [List.filter_cons_of_pos (by simp [hfield]), List.flatMap_cons,
          List.filter_eq_self.2 (by simp [hfield])]
      · rw [List.filter_cons_of_neg (by simp [hfield]),
          List.filter_eq_nil_iff.2 (by simp [hfield])]
        rfl
  unfold rejected
  rw [← huses, List.filter_filter, List.filter_filter]
  refine List.filter_congr fun u _ => ?_
  exact Bool.and_comm _ _

/-- **A field is examined by its own chains.** -/
theorem get?_examine_filter (x : Examiner) (today : Date) (r : Record) (chains : List Chain)
    (w : Wording) (field : String) :
    (x.examine today r (chains.filter (·.field == field)) w).get? field =
      (x.examine today r chains w).get? field := by
  rw [get?_examine, get?_examine, filter_rejected, filter_rejected, List.filter_filter]
  simp only [Bool.and_self]

/-- A chain examined alone fails on no other field. -/
theorem field_of_get?_examine_singleton {today : Date} {r : Record} {w : Wording}
    {message : String} (h : (x.examine today r [chain] w).get? field = some message) :
    chain.field = field := by
  by_contra hne
  have hnone : [chain].filter (·.field == field) = [] := by simp [hne]
  rw [← get?_examine_filter, hnone] at h
  cases h

theorem filter_field_of_nodup (hnodup : (chains.map Chain.field).Nodup) (hmem : chain ∈ chains) :
    chains.filter (·.field == chain.field) = [chain] := by
  induction chains with
  | nil => cases hmem
  | cons first rest ih =>
    obtain ⟨hfirst, hrest⟩ := List.nodup_cons.1 hnodup
    rcases List.mem_cons.1 hmem with rfl | hmem
    · -- no chain behind has the same field
      have hnone : rest.filter (·.field == chain.field) = [] := by
        refine List.filter_eq_nil_iff.2 fun other hother hsame => hfirst ?_
        rw [← beq_iff_eq.1 hsame]
        exact List.mem_map_of_mem hother
      rw [List.filter_cons_of_pos (by simp), hnone]
    · have hne : first.field ≠ chain.field := by
        intro hsame
        rw [hsame] at hfirst
        exact hfirst (List.mem_map_of_mem hmem)
      rw [List.filter_cons_of_neg (by simp [hne])]
      exact ih hrest hmem

/-! ### Chains of different fields -/

/-- **If every field has one chain, the failures are those of the chains examined alone.** -/
theorem get?_examine_iff_of_nodup (x : Examiner) (today : Date) (r : Record) (w : Wording)
    (hnodup : (chains.map Chain.field).Nodup) (field message : String) :
    (x.examine today r chains w).get? field = some message ↔
      ∃ chain ∈ chains, (x.examine today r [chain] w).get? field = some message := by
  constructor
  · intro h
    rw [← get?_examine_filter] at h
    cases hfound : chains.filter (·.field == field) with
    | nil =>
      rw [hfound] at h
      cases h
    | cons chain rest =>
      obtain ⟨hmem, hfield⟩ := List.mem_filter.1 (hfound ▸ List.mem_cons_self ..)
      rw [← beq_iff_eq.1 hfield] at h ⊢
      rw [filter_field_of_nodup hnodup hmem] at h
      exact ⟨chain, hmem, h⟩
  · intro h
    obtain ⟨chain, hmem, hchain⟩ := h
    obtain rfl := field_of_get?_examine_singleton hchain
    rw [← get?_examine_filter, filter_field_of_nodup hnodup hmem]
    exact hchain

/-- The order of the chains of different fields does not matter. -/
theorem examine_perm (x : Examiner) (today : Date) (r : Record) (w : Wording)
    {listed reordered : List Chain} (hnodup : (listed.map Chain.field).Nodup)
    (hperm : listed.Perm reordered) :
    x.examine today r listed w = x.examine today r reordered w := by
  have hnodup' : (reordered.map Chain.field).Nodup := (hperm.map Chain.field).nodup_iff.1 hnodup
  apply Dict.ext_get?
  intro field
  apply Option.ext
  intro message
  rw [x.get?_examine_iff_of_nodup today r w hnodup, x.get?_examine_iff_of_nodup today r w hnodup']
  simp only [hperm.mem_iff]

/-! ### Compiled chains -/

/-- Compiling keeps the fields. -/
theorem map_field_of_compile (h : x.compile texts = .ok chains) :
    chains.map Chain.field = texts.keys := by
  have hcompiled : List.Forall₂ (fun e c => x.compileField e.1 e.2 = .ok c) texts.entries chains :=
    (mapM_eq_ok_iff _ _ _).1 h
  show chains.map Chain.field = texts.entries.map (·.1)
  clear h
  generalize texts.entries = entries at hcompiled ⊢
  induction hcompiled with
  | nil => rfl
  | cons hchain _ ih =>
    rw [List.map_cons, List.map_cons, ih, Chain.field_of_read (read_of_compileField hchain)]

theorem nodup_field_of_compile (h : x.compile texts = .ok chains) :
    (chains.map Chain.field).Nodup := by
  rw [map_field_of_compile h]
  exact texts.nodup_keys

/-- Among compiled chains there is one chain for a field. -/
theorem filter_field_of_compile (h : x.compile texts = .ok chains)
    (htext : texts.get? field = some text) (hread : Chain.read field text = .ok chain) :
    chains.filter (·.field == field) = [chain] := by
  have hentry : (field, text) ∈ texts.entries := (texts.mem_entries_iff (field, text)).2 htext
  obtain ⟨compiled, hcompiled⟩ := (x.exists_compile_eq_ok_iff texts).1 ⟨chains, h⟩ _ hentry
  obtain rfl : compiled = chain :=
    Except.ok.inj ((read_of_compileField hcompiled).symm.trans hread)
  have hmem : compiled ∈ chains := (mem_iff_of_mapM_eq_ok h compiled).2 ⟨_, hentry, hcompiled⟩
  have hfilter := filter_field_of_nodup (nodup_field_of_compile h) hmem
  rwa [Chain.field_of_read hread] at hfilter

/-- **The message of a field is that of the last call in its chain that rejects it.** -/
theorem get?_examine_of_compile (h : x.compile texts = .ok chains)
    (htext : texts.get? field = some text) (hread : Chain.read field text = .ok chain)
    (today : Date) (r : Record) (w : Wording) :
    (x.examine today r chains w).get? field =
      (chain.calls.filter (x.rejects ⟨r, field, today⟩)).getLast?.map
        (x.messageFor w field) := by
  have hfield : chain.field = field := Chain.field_of_read hread
  rw [get?_examine, filter_rejected, filter_field_of_compile h htext hread, rejected_singleton,
    hfield, List.getLast?_map, Option.map_map]
  rfl

/-- A field fails if and only if some call in its chain rejects it. -/
theorem contains_examine_iff (h : x.compile texts = .ok chains)
    (htext : texts.get? field = some text) (hread : Chain.read field text = .ok chain)
    (today : Date) (r : Record) (w : Wording) :
    (x.examine today r chains w).contains field = true ↔
      ∃ call ∈ chain.calls, x.rejects ⟨r, field, today⟩ call = true := by
  rw [Dict.contains, get?_examine_of_compile h htext hread, Option.isSome_map,
    List.getLast?_isSome, ne_eq, List.filter_eq_nil_iff]
  simp

/-- A field with a single call has the message of the call or none. -/
theorem get?_examine_of_call {call : Call} {rule : Definition} (h : x.compile texts = .ok chains)
    (htext : texts.get? field = some text) (hread : Chain.read field text = .ok ⟨field, [call]⟩)
    (hrule : x.registry.get? call.name = some rule) (today : Date) (r : Record) (w : Wording) :
    (x.examine today r chains w).get? field =
      if rule.check ⟨r, field, today⟩ call.params then none
      else some (x.messageFor w field call) := by
  have hrejects : x.rejects ⟨r, field, today⟩ call = !rule.check ⟨r, field, today⟩ call.params := by
    unfold rejects
    rw [hrule]
  rw [get?_examine_of_compile h htext hread, List.filter_cons, hrejects]
  cases rule.check ⟨r, field, today⟩ call.params <;> rfl

/-! ### One chain alone -/

/-- A single chain of calls that the examiner has no problem with compiles. -/
theorem exists_compile_singleton (hread : Chain.read field text = .ok chain)
    (hproblem : x.chainProblem? chain = none) :
    ∃ compiled, x.compile (Dict.ofList [(field, text)]) = .ok compiled := by
  rw [compile_singleton, exists_map_eq_ok_iff]
  exact ⟨chain, (x.compileField_eq_ok_iff field text chain).2 ⟨hread, hproblem⟩⟩

/-- Validates the chain of one field as if there were no other. -/
def validateAlone (x : Examiner) (today : Date) (r : Record) (w : Wording)
    (e : String × String) : Except Problem Failures :=
  x.validate today r (Dict.ofList [e]) w

theorem validateAlone_eq_map (x : Examiner) (today : Date) (r : Record) (w : Wording)
    (e : String × String) :
    x.validateAlone today r w e =
      (x.compileField e.1 e.2).map fun chain => x.examine today r [chain] w := by
  rw [validateAlone, validate_eq_map, compile_singleton]
  cases x.compileField e.1 e.2 <;> rfl

/-- **The failures of all fields are those of the fields validated alone.** -/
theorem get?_validate_iff {today : Date} {r : Record} {w : Wording} {failures : Failures}
    (h : x.validate today r texts w = .ok failures) (field message : String) :
    failures.get? field = some message ↔
      ∃ e ∈ texts.entries, ∃ alone, x.validateAlone today r w e = .ok alone ∧
        alone.get? field = some message := by
  rw [validate_eq_map, map_eq_ok_iff] at h
  obtain ⟨chains, hchains, rfl⟩ := h
  rw [x.get?_examine_iff_of_nodup today r w (nodup_field_of_compile hchains)]
  simp only [validateAlone_eq_map, map_eq_ok_iff]
  constructor
  · intro h
    obtain ⟨chain, hmem, hmessage⟩ := h
    obtain ⟨e, he, hcompile⟩ := (mem_iff_of_mapM_eq_ok hchains chain).1 hmem
    exact ⟨e, he, _, ⟨chain, hcompile, rfl⟩, hmessage⟩
  · intro h
    obtain ⟨e, he, _, ⟨chain, hcompile, rfl⟩, hmessage⟩ := h
    exact ⟨chain, (mem_iff_of_mapM_eq_ok hchains chain).2 ⟨e, he, hcompile⟩, hmessage⟩

/-- **Validating is validating the chain of each field alone.**  It succeeds if and only if this
does for every field, and then its failures are those of all fields.  Otherwise its problem is
that of the first field, in the order of the fields, whose chain alone has one.  And chains of
different fields can be examined in any order. -/
theorem validate_decomposes (x : Examiner) (today : Date) (r : Record) (texts : Dict String)
    (w : Wording) :
    ((∃ failures, x.validate today r texts w = .ok failures) ↔
      ∀ e ∈ texts.entries, ∃ alone, x.validateAlone today r w e = .ok alone) ∧
    (∀ failures, x.validate today r texts w = .ok failures →
      ∀ field message, failures.get? field = some message ↔
        ∃ e ∈ texts.entries, ∃ alone, x.validateAlone today r w e = .ok alone ∧
          alone.get? field = some message) ∧
    (∀ problem, x.validate today r texts w = .error problem ↔
      FirstFailure (x.validateAlone today r w) texts.entries problem) ∧
    ∀ listed reordered : List Chain, (listed.map Chain.field).Nodup → listed.Perm reordered →
      x.examine today r listed w = x.examine today r reordered w := by
  have halone : x.validateAlone today r w =
      fun e => (x.compileField e.1 e.2).map fun chain => x.examine today r [chain] w :=
    funext (x.validateAlone_eq_map today r w)
  refine ⟨?_, ?_, ?_, ?_⟩
  · rw [validate_eq_map, exists_map_eq_ok_iff, exists_compile_eq_ok_iff]
    simp only [halone, exists_map_eq_ok_iff]
  · intro failures hvalidate field message
    exact get?_validate_iff hvalidate field message
  · intro problem
    rw [validate_eq_map, map_eq_error_iff, compile_eq_error_iff, halone]
    exact (firstFailure_map_iff _ _ _ _).symm
  · intro listed reordered hnodup hperm
    exact x.examine_perm today r w hnodup hperm

/-- The chains of a form for signing up. -/
def signup : Dict String :=
  Dict.ofList [("age", "number|min:2"), ("name", "required|min:3")]

open TwoCountries in
/-- A name that is too short fails among the chains of all fields as it does alone, and the two
chains can be examined in the other order. -/
theorem validate_decomposes_of_signup :
    let x : Examiner := ⟨.standard, true⟩
    let today : Date := ⟨2024, 6, 15, by decide⟩
    let r : Record := Dict.ofList [("age", .text "17"), ("name", .text "Al")]
    let age : Chain := ⟨"age", [⟨"number", []⟩, ⟨"min", [.int 2]⟩]⟩
    let name : Chain := ⟨"name", [⟨"required", []⟩, ⟨"min", [.int 3]⟩]⟩
    (∃ failures message, x.validate today r signup .empty = .ok failures ∧
      failures.get? "name" = some message) ∧
    ([age, name].map Chain.field).Nodup ∧ [age, name].Perm [name, age] ∧
    x.examine today r [age, name] .empty = x.examine today r [name, age] .empty := by
  intro x today r age name
  obtain ⟨hok, hunion, -, hperm⟩ := x.validate_decomposes today r signup .empty
  obtain ⟨failures, hvalidate⟩ := exists_eq_ok_of_isOk
    (show (x.validate today r signup .empty).isOk = true by rfl)
  have hnodup : ([age, name].map Chain.field).Nodup := by decide
  have hswap : [age, name].Perm [name, age] := .swap ..
  have hmem : ("name", "required|min:3") ∈ signup.entries := (signup.mem_entries_iff _).2 rfl
  obtain ⟨alone, halone⟩ := hok.1 ⟨failures, hvalidate⟩ _ hmem
  have hfails : ((x.validateAlone today r .empty ("name", "required|min:3")).toOption.bind
      (·.get? "name")).isSome = true := by rfl
  obtain ⟨message, hmessage⟩ := Option.isSome_iff_exists.1 hfails
  rw [halone] at hmessage
  have hname := (hunion failures hvalidate "name" message).2 ⟨_, hmem, alone, halone, hmessage⟩
  exact ⟨⟨failures, message, hvalidate, hname⟩, hnodup, hswap, hperm _ _ hnodup hswap⟩

end Examiner

end Intake
