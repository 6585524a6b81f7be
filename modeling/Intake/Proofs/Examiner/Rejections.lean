import Intake.Examiner

/-!
# The last rejection

Examining goes through all rules of all chains and notes a message for every rule that
fails, in place of an earlier one.  So what is left for a field is the message of the last
rule that rejected it.

* `Examiner.rejected` lists the uses of rules that are known and fail, in order.
* `Examiner.examine_eq_ofList`: the failures are the messages of the rejections, of which the
  last for a field counts.
* `Message.Wording.template?_eq`: the template of a field comes before that of the rule, and
  this before the default message.
-/

namespace Intake

open Rule Message

/-! ### Templates -/

/-- The template of the field counts first, then that of the rule, then the default. -/
theorem Message.Wording.template?_eq (w : Wording) (registry : Registry) (field rule : String) :
    w.template? registry field rule =
      ((w.fieldTemplate? field rule).or (w.rules.get? rule)).or (registry.message? rule) := by
  unfold Wording.template? Wording.defaults
  rw [Dict.get?_insertMany_entries, Option.orElse_eq_orElse, Option.orElse_eq_or,
    Option.or_assoc]
  rfl

namespace Examiner

/-! ### Uses of rules -/

/-- The uses of rules in chains, each with its field, in order. -/
def uses (chains : List Chain) : List (String × Call) :=
  chains.flatMap fun chain => chain.calls.map (chain.field, ·)

/-- The uses whose rule is registered and fails, in order. -/
def rejected (x : Examiner) (today : Date) (r : Record) (chains : List Chain) :
    List (String × Call) :=
  (uses chains).filter fun u =>
    (x.registry.rules.get? u.2.name).any fun rule => !rule.check ⟨r, u.1, today⟩ u.2.params

theorem rejects_eq_any (x : Examiner) (subject : Subject) (call : Call) :
    x.rejects subject call =
      (x.registry.rules.get? call.name).any fun rule => !rule.check subject call.params := by
  unfold rejects Registry.get?
  cases x.registry.rules.get? call.name <;> rfl

theorem mem_uses {chains : List Chain} {u : String × Call} :
    u ∈ uses chains ↔ ∃ chain ∈ chains, chain.field = u.1 ∧ u.2 ∈ chain.calls := by
  unfold uses
  rw [List.mem_flatMap]
  constructor
  · rintro ⟨chain, hchain, hu⟩
    obtain ⟨call, hcall, rfl⟩ := List.mem_map.1 hu
    exact ⟨chain, hchain, rfl, hcall⟩
  · rintro ⟨chain, hchain, hfield, hcall⟩
    exact ⟨chain, hchain, List.mem_map.2 ⟨u.2, hcall, Prod.ext hfield rfl⟩⟩

/-! ### Examining as storing messages -/

theorem foldl_examineCall (x : Examiner) (subject : Subject) (w : Wording)
    (failures : Failures) (calls : List Call) :
    calls.foldl (x.examineCall subject w) failures =
      failures.insertMany ((calls.filter (x.rejects subject)).map fun call =>
        (subject.field, x.messageFor w subject.field call)) := by
  induction calls generalizing failures with
  | nil => rfl
  | cons call rest ih =>
    rw [List.foldl_cons, ih]
    by_cases h : x.rejects subject call = true
    · rw [List.filter_cons_of_pos h, examineCall, if_pos h]
      rfl
    · rw [List.filter_cons_of_neg h, examineCall, if_neg h]

/-- The rejections of a single chain are its calls that are rejected. -/
theorem rejected_singleton (x : Examiner) (today : Date) (r : Record) (chain : Chain) :
    x.rejected today r [chain] =
      (chain.calls.filter (x.rejects ⟨r, chain.field, today⟩)).map (chain.field, ·) := by
  rw [rejected, uses, List.flatMap_singleton, List.filter_map]
  congr 1
  refine List.filter_congr fun call _ => ?_
  exact (x.rejects_eq_any ⟨r, chain.field, today⟩ call).symm

theorem examineChain_eq (x : Examiner) (today : Date) (r : Record) (w : Wording)
    (failures : Failures) (chain : Chain) :
    x.examineChain today r w failures chain =
      failures.insertMany ((x.rejected today r [chain]).map fun u =>
        (u.1, x.messageFor w u.1 u.2)) := by
  rw [examineChain, foldl_examineCall, rejected_singleton, List.map_map]
  rfl

/-- **Examining stores the messages of all rejections, one after the other.** -/
theorem examine_eq_ofList (x : Examiner) (today : Date) (r : Record) (chains : List Chain)
    (w : Wording) :
    x.examine today r chains w =
      Dict.ofList ((x.rejected today r chains).map fun u => (u.1, x.messageFor w u.1 u.2)) := by
  have hrun : ∀ failures : Failures, chains.foldl (x.examineChain today r w) failures =
      failures.insertMany ((x.rejected today r chains).map fun u =>
        (u.1, x.messageFor w u.1 u.2)) := by
    induction chains with
    | nil =>
      intro failures
      rfl
    | cons chain rest ih =>
      intro failures
      have happend : x.rejected today r (chain :: rest) =
          x.rejected today r [chain] ++ x.rejected today r rest := by
        unfold rejected uses
        rw [← List.filter_append, List.flatMap_singleton, List.flatMap_cons]
      rw [List.foldl_cons, ih, x.examineChain_eq, happend, List.map_append,
        Dict.insertMany_append]
  exact hrun ∅

/-- The message of a field is that of its last rejection. -/
theorem get?_examine (x : Examiner) (today : Date) (r : Record) (chains : List Chain)
    (w : Wording) (field : String) :
    (x.examine today r chains w).get? field =
      ((x.rejected today r chains).filter (·.1 == field)).getLast?.map fun u =>
        x.messageFor w u.1 u.2 := by
  rw [examine_eq_ofList, Dict.get?_ofList_eq_getLast?, List.filter_map, List.getLast?_map,
    Option.map_map]
  rfl

/-- Records on which the rules of a field are rejected alike give it the same message. -/
theorem get?_examine_congr (x : Examiner) (today : Date) {r₁ r₂ : Record}
    (chains : List Chain) (w : Wording) (field : String)
    (h : ∀ chain ∈ chains, chain.field = field → ∀ call ∈ chain.calls,
      x.rejects ⟨r₁, field, today⟩ call = x.rejects ⟨r₂, field, today⟩ call) :
    (x.examine today r₁ chains w).get? field = (x.examine today r₂ chains w).get? field := by
  have hsame : (x.rejected today r₁ chains).filter (·.1 == field) =
      (x.rejected today r₂ chains).filter (·.1 == field) := by
    unfold rejected
    rw [List.filter_filter, List.filter_filter]
    refine List.filter_congr fun u hu => ?_
    by_cases hfield : u.1 = field
    · obtain ⟨chain, hchain, hchainField, hcall⟩ := mem_uses.1 hu
      have hcong := h chain hchain (hchainField.trans hfield) u.2 hcall
      rw [rejects_eq_any, rejects_eq_any, ← hfield] at hcong
      rw [hcong]
    · rw [beq_eq_false_iff_ne.2 hfield, Bool.false_and, Bool.false_and]
  rw [get?_examine, get?_examine, hsame]

end Examiner

end Intake
