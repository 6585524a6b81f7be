import Intake.Proofs.Examiner.Arity
import Intake.Proofs.Rule.Joining

/-!
# Lengths between two limits

A length can be limited from both sides by one rule, `between`, or by two, `min` and `max`.  This
comes to the same, whatever stands in place of the limits: a limit that is blank, no number or
beyond 64 bits fails every field that is there, in either way of writing it.

* `Param.limit?` is the limit that a text sets as a parameter.
* `Value.LengthWithin`: a value has a text whose length lies between two limits.
* `Checks.between_readParams`: the rule `between` is the rules `min` and `max` together, and
  `Checks.min_and_max_iff` says what they ask for.
* `Examiner.between_is_min_and_max`: the same of the chains of these rules.
-/

namespace Intake

open Rule Message

/-- The limit that a text sets as a parameter: the number of 64 bits that it reads as, if it is
one.  White space around it does not count. -/
def Rule.Param.limit? (s : String) : Option Int64 :=
  Number.readInt64? (Text.trim s).toList

/-- A value has a text with as many characters as two limits allow. -/
def Value.LengthWithin (v : Value) (low high : String) : Prop :=
  ∃ text least most, v.text? = some text ∧ Param.limit? low = some least ∧
    Param.limit? high = some most ∧ least.toInt ≤ text.length ∧ (text.length : Int) ≤ most.toInt

namespace Rule

/-! ### Limits -/

theorem Param.int?_read (s : String) : (Param.read s).int? = Param.limit? s := by
  cases hlimit : Number.readInt64? (Text.trim s).toList with
  | none => rw [Param.read_of_eq_none hlimit, Param.limit?, hlimit, Param.int?]
  | some n => rw [Param.read_of_eq_some hlimit, Param.limit?, hlimit, Param.int?]

theorem Param.limit?_of_blank {s : String} (h : Text.trim s = "") : Param.limit? s = none := by
  rw [Param.limit?, h]
  rfl

/-- A text without commas gives one parameter at most. -/
theorem Call.length_readParams_le {s : String} (h : ',' ∉ s.toList) :
    (Call.readParams s).length ≤ 1 := by
  rw [Call.readParams_of_not_mem h]
  split <;> simp

namespace Checks

theorem intParam?_cons_zero (param : Param) (rest : List Param) :
    intParam? (param :: rest) 0 = param.int? := rfl

theorem intParam?_cons_succ (param : Param) (rest : List Param) (index : Nat) :
    intParam? (param :: rest) (index + 1) = intParam? rest index := rfl

theorem intParam?_readParams {s : String} (h : ',' ∉ s.toList) :
    intParam? (Call.readParams s) 0 = Param.limit? s := by
  rw [Call.readParams_of_not_mem h]
  by_cases hblank : Text.trim s = ""
  · rw [if_pos hblank, Param.limit?_of_blank hblank]
    rfl
  · rw [if_neg hblank, intParam?_cons_zero, Param.int?_read]

section Pair

variable {low high : String} (hlow : ',' ∉ low.toList) (hhigh : ',' ∉ high.toList)
include hlow hhigh

/-- A blank lower limit leaves no second parameter. -/
theorem intParam?_pair_of_blank (hblank : Text.trim low = "") :
    intParam? (Call.readParams (low ++ "," ++ high)) 1 = none := by
  rw [Call.readParams_append_comma, Call.readParams_of_not_mem hlow, if_pos hblank,
    Call.readParams_of_not_mem hhigh, List.nil_append]
  split <;> rfl

/-- Behind a lower limit that is not blank the second parameter is the upper limit. -/
theorem intParam?_pair (hne : Text.trim low ≠ "") :
    intParam? (Call.readParams (low ++ "," ++ high)) 0 = Param.limit? low ∧
      intParam? (Call.readParams (low ++ "," ++ high)) 1 = Param.limit? high := by
  rw [Call.readParams_append_comma, Call.readParams_of_not_mem hlow, if_neg hne,
    List.singleton_append, intParam?_cons_zero, intParam?_cons_succ, Param.int?_read,
    intParam?_readParams hhigh]
  exact ⟨rfl, rfl⟩

end Pair

/-! ### The three rules -/

/-- The rule `between` compares the length with each of its parameters. -/
theorem between_eq (s : Subject) (params : List Param) :
    between s params = ifPresent (fun v =>
      lengthIs (fun length n => n ≤ length) (intParam? params 0) v &&
        lengthIs (fun length n => length ≤ n) (intParam? params 1) v) s := by
  show ifPresent _ s = ifPresent _ s
  congr 1
  funext v
  unfold lengthIs
  cases v.text? with
  | none => rfl
  | some text => cases intParam? params 0 <;> cases intParam? params 1 <;> simp

/-- **The rule `between` is the rules `min` and `max` together**, if their parameters are read from
the same texts. -/
theorem between_readParams {low high : String} (hlow : ',' ∉ low.toList) (hhigh : ',' ∉ high.toList)
    (s : Subject) :
    between s (Call.readParams (low ++ "," ++ high)) =
      (min s (Call.readParams low) && max s (Call.readParams high)) := by
  rw [between_eq, min, max, intParam?_readParams hlow, intParam?_readParams hhigh]
  cases hvalue : s.value? with
  | none => simp only [ifPresent_of_missing hvalue, Bool.and_self]
  | some v =>
    simp only [ifPresent_of_value hvalue]
    by_cases hblank : Text.trim low = ""
    · -- then neither side has a lower limit
      rw [intParam?_pair_of_blank hlow hhigh hblank, Param.limit?_of_blank hblank, lengthIs_none,
        lengthIs_none, Bool.and_false, Bool.false_and]
    · obtain ⟨hfirst, hsecond⟩ := intParam?_pair hlow hhigh hblank
      rw [hfirst, hsecond]

theorem lengthIs_iff (test : Int → Int → Bool) (limit : Option Int64) (v : Value) :
    lengthIs test limit v = true ↔
      ∃ text n, v.text? = some text ∧ limit = some n ∧ test text.length n.toInt = true := by
  unfold lengthIs
  cases v.text? <;> cases limit <;> simp

/-- **What the rules `min` and `max` ask for**: if the field is there, its length lies between the
two limits. -/
theorem min_and_max_iff {low high : String} (hlow : ',' ∉ low.toList) (hhigh : ',' ∉ high.toList)
    (s : Subject) :
    (min s (Call.readParams low) && max s (Call.readParams high)) = true ↔
      ∀ v, s.value? = some v → v.LengthWithin low high := by
  rw [min, max, intParam?_readParams hlow, intParam?_readParams hhigh]
  cases hvalue : s.value? with
  | none => simp [ifPresent_of_missing hvalue]
  | some v =>
    rw [ifPresent_of_value hvalue, ifPresent_of_value hvalue, Bool.and_eq_true, lengthIs_iff,
      lengthIs_iff]
    constructor
    · intro h other hother
      obtain rfl := Option.some.inj hother
      obtain ⟨⟨text, least, htext, hleast, hge⟩, text', most, htext', hmost, hle⟩ := h
      obtain rfl := Option.some.inj (htext.symm.trans htext')
      exact ⟨text, least, most, htext, hleast, hmost, of_decide_eq_true hge, of_decide_eq_true hle⟩
    · intro h
      obtain ⟨text, least, most, htext, hleast, hmost, hge, hle⟩ := h v rfl
      exact ⟨⟨text, least, htext, hleast, decide_eq_true hge⟩, text, most, htext, hmost,
        decide_eq_true hle⟩

end Checks

/-! ### The two chains -/

/-- A text can be a limit in either chain if it has no character that separates tokens or
parameters. -/
structure IsLimit (s : String) : Prop where
  no_bar : '|' ∉ s.toList
  no_comma : ',' ∉ s.toList

namespace Chain

variable {low high : String} (hlow : IsLimit low) (hhigh : IsLimit high)
include hlow hhigh

theorem read_between (field : String) :
    read field ("between:" ++ low ++ "," ++ high) =
      .ok ⟨field, [⟨"between", Call.readParams (low ++ "," ++ high)⟩]⟩ := by
  have hname : Text.Bare ['|', ':'] "between" := .of_all (by decide) (by decide)
  have hbar : '|' ∉ (low ++ "," ++ high).toList := by simp [hlow.no_bar, hhigh.no_bar]
  have htext : "between:" ++ low ++ "," ++ high = "between" ++ ":" ++ (low ++ "," ++ high) := by
    rw [← String.toList_inj]
    simp
  rw [htext, read_single hname hbar]

theorem read_min_max (field : String) :
    read field ("min:" ++ low ++ "|max:" ++ high) =
      .ok ⟨field, [⟨"min", Call.readParams low⟩, ⟨"max", Call.readParams high⟩]⟩ := by
  have hmin : Text.Bare ['|', ':'] "min" := .of_all (by decide) (by decide)
  have hmax : Text.Bare ['|', ':'] "max" := .of_all (by decide) (by decide)
  have htext : "min:" ++ low ++ "|max:" ++ high =
      "min" ++ ":" ++ low ++ "|" ++ ("max" ++ ":" ++ high) := by
    rw [← String.toList_inj]
    simp
  rw [htext, read_append, read_single hmin hlow.no_bar, read_single hmax hhigh.no_bar]
  rfl

end Chain

end Rule

namespace Examiner

/-- What a lenient examiner makes of a field with a chain that can be read. -/
theorem validate_lenient (registry : Registry) {field text : String} {chain : Chain}
    (hread : Chain.read field text = .ok chain) (today : Date) (r : Record) (w : Wording) :
    ∃ failures, validate ⟨registry, false⟩ today r (Dict.ofList [(field, text)]) w = .ok failures ∧
      (failures.contains field = true ↔
        ∃ call ∈ chain.calls, rejects ⟨registry, false⟩ ⟨r, field, today⟩ call = true) := by
  obtain ⟨compiled, hcompiled⟩ := exists_compile_singleton (x := ⟨registry, false⟩) hread rfl
  have htext : (Dict.ofList [(field, text)]).get? field = some text := by
    rw [Dict.get?_ofList_singleton, if_pos rfl]
  exact ⟨_, validate_of_compile hcompiled today r w,
    contains_examine_iff hcompiled htext hread today r w⟩

/-- A strict examiner accepts a field with a chain of known rules if each has its parameters. -/
theorem exists_compile_strict_iff {registry : Registry} {field text : String} {chain : Chain}
    (hread : Chain.read field text = .ok chain) :
    (∃ compiled, compile ⟨registry, true⟩ (Dict.ofList [(field, text)]) = .ok compiled) ↔
      ∀ call ∈ chain.calls, callProblem? ⟨registry, true⟩ chain.field call = none := by
  rw [compile_singleton, exists_map_eq_ok_iff]
  simp only [compileField_eq_ok_iff, hread, Except.ok.injEq, exists_eq_left', chainProblem?,
    if_true, List.findSome?_eq_none_iff]

theorem callProblem?_eq_none_iff {x : Examiner} {call : Call} {rule : Definition}
    (hrule : x.registry.get? call.name = some rule) (field : String) :
    x.callProblem? field call = none ↔ rule.arity ≤ call.params.length := by
  unfold callProblem?
  rw [hrule]
  simp

/-- **The chain `between` is the chain of `min` and `max`.**  For all texts that can stand for the
two limits, both chains fail the same records: those in which the field is there and has no text
whose length lies between the limits.  A strict examiner refuses either both chains or none. -/
theorem between_is_min_and_max [PhoneDirectory] (field : String) {low high : String}
    (hlow : IsLimit low) (hhigh : IsLimit high) (today : Date) (r : Record) (w : Wording) :
    ∃ ranged bounded,
      validate ⟨.standard, false⟩ today r
        (Dict.ofList [(field, "between:" ++ low ++ "," ++ high)]) w = .ok ranged ∧
      validate ⟨.standard, false⟩ today r
        (Dict.ofList [(field, "min:" ++ low ++ "|max:" ++ high)]) w = .ok bounded ∧
      (ranged.contains field = true ↔ bounded.contains field = true) ∧
      (ranged.contains field = true ↔
        ∃ v, r.present? field = some v ∧ ¬ v.LengthWithin low high) ∧
      ((∃ compiled, compile ⟨.standard, true⟩
          (Dict.ofList [(field, "between:" ++ low ++ "," ++ high)]) = .ok compiled) ↔
        ∃ compiled, compile ⟨.standard, true⟩
          (Dict.ofList [(field, "min:" ++ low ++ "|max:" ++ high)]) = .ok compiled) := by
  let subject : Subject := ⟨r, field, today⟩
  let atLeast := Checks.min subject (Call.readParams low)
  let atMost := Checks.max subject (Call.readParams high)
  obtain ⟨ranged, hranged, hfails⟩ :=
    validate_lenient .standard (Chain.read_between hlow hhigh field) today r w
  obtain ⟨bounded, hbounded, hfails'⟩ :=
    validate_lenient .standard (Chain.read_min_max hlow hhigh field) today r w
  obtain ⟨_, hbetween⟩ : ∃ message, Registry.standard.get? "between" =
      some ⟨Checks.between, message, 2⟩ := ⟨_, Registry.get?_standard _⟩
  obtain ⟨_, hmin⟩ : ∃ message, Registry.standard.get? "min" = some ⟨Checks.min, message, 1⟩ :=
    ⟨_, Registry.get?_standard _⟩
  obtain ⟨_, hmax⟩ : ∃ message, Registry.standard.get? "max" = some ⟨Checks.max, message, 1⟩ :=
    ⟨_, Registry.get?_standard _⟩
  have hrange : ranged.contains field = true ↔ (atLeast && atMost) = false := by
    rw [hfails, ← Checks.between_readParams hlow.no_comma hhigh.no_comma subject]
    simp only [List.mem_singleton, exists_eq_left]
    rw [rejects_eq_not_check hbetween, Bool.not_eq_true']
  have hbounds : bounded.contains field = true ↔ (atLeast && atMost) = false := by
    rw [hfails', Bool.and_eq_false_iff]
    simp only [List.mem_cons, List.not_mem_nil, or_false, exists_eq_or_imp, exists_eq_left]
    rw [rejects_eq_not_check hmin, rejects_eq_not_check hmax, Bool.not_eq_true',
      Bool.not_eq_true']
  refine ⟨ranged, bounded, hranged, hbounded, hrange.trans hbounds.symm, ?_, ?_⟩
  · rw [hrange, ← Bool.not_eq_true, Checks.min_and_max_iff hlow.no_comma hhigh.no_comma subject]
    simp only [not_forall, exists_prop]
    rfl
  · rw [exists_compile_strict_iff (Chain.read_between hlow hhigh field),
      exists_compile_strict_iff (Chain.read_min_max hlow hhigh field)]
    simp only [List.mem_cons, List.not_mem_nil, or_false, forall_eq, forall_eq_or_imp]
    rw [callProblem?_eq_none_iff hbetween, callProblem?_eq_none_iff hmin,
      callProblem?_eq_none_iff hmax, Call.readParams_append_comma, List.length_append]
    have hfirst := Call.length_readParams_le hlow.no_comma
    have hsecond := Call.length_readParams_le hhigh.no_comma
    simp only
    omega

open TwoCountries in
/-- A limit that is blank fails a name in either chain. -/
theorem between_is_min_and_max_of_blank :
    let r : Record := Dict.ofList [("name", .text "Alice")]
    IsLimit " 3" ∧ IsLimit "\u3000" ∧ ∃ ranged bounded,
      validate ⟨.standard, false⟩ ⟨2024, 6, 15, by decide⟩ r
        (Dict.ofList [("name", "between:" ++ " 3" ++ "," ++ "\u3000")]) .empty = .ok ranged ∧
      validate ⟨.standard, false⟩ ⟨2024, 6, 15, by decide⟩ r
        (Dict.ofList [("name", "min:" ++ " 3" ++ "|max:" ++ "\u3000")]) .empty = .ok bounded ∧
      ranged.contains "name" = true ∧ bounded.contains "name" = true := by
  intro r
  have hlow : IsLimit " 3" := ⟨by decide, by decide⟩
  have hhigh : IsLimit "\u3000" := ⟨by decide, by decide⟩
  obtain ⟨ranged, bounded, hranged, hbounded, hsame, hfails, -⟩ :=
    between_is_min_and_max "name" hlow hhigh ⟨2024, 6, 15, by decide⟩ r .empty
  have hname : ranged.contains "name" = true := by
    refine hfails.2 ⟨.text "Alice", rfl, fun hwithin => ?_⟩
    obtain ⟨_, _, most, -, -, hmost, -⟩ := hwithin
    cases hmost
  exact ⟨hlow, hhigh, ranged, bounded, hranged, hbounded, hname, hsame.1 hname⟩

end Examiner

end Intake
