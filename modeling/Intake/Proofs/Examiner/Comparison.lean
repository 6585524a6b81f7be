import Intake.Proofs.Examiner.Refusals
import Intake.Proofs.Message.Pieces
import Intake.Proofs.Pipeline.OneField

/-!
# Comparing two fields

The rule `same` names another field in its parameter.  The name is read as any parameter is, so
that a name which reads as a number is looked up as that number is written anew.

* `IsNameable`: the names that can stand in a parameter.
* `Record.Agree`: two fields are both missing, or are there with equal values.
* `Examiner.CompareFields`: what validating with the chain says of a field and another one.
* `Examiner.validate_same`: the chain compares with the field of the rewritten name, and with the
  one that was named if and only if this is the same name.
* `Examiner.validate_same_misses`: the field `+07` is not compared with.
-/

namespace Intake

open Rule Message

/-! ### One parameter -/

/-- A name that can stand in a parameter: it is not empty, has no white space around it and no
character that separates tokens or parameters. -/
structure IsNameable (name : String) : Prop where
  ne_empty : name ≠ ""
  trimmed : Text.trim name = name
  no_bar : '|' ∉ name.toList
  no_comma : ',' ∉ name.toList

namespace IsNameable

variable {name : String}

/-- The chain for a name has the name as its only parameter. -/
theorem read_same (h : IsNameable name) (field : String) :
    Chain.read field ("same:" ++ name) = .ok ⟨field, [⟨"same", [Param.read name]⟩]⟩ := by
  have hsame : Text.Bare ['|', ':'] "same" := .of_all (by decide) (by decide)
  have hparams : Call.readParams name = [Param.read name] := by
    rw [Call.readParams_of_not_mem h.no_comma, h.trimmed, if_neg h.ne_empty]
  rw [← hparams]
  exact Chain.read_single hsame h.no_bar field

/-- What a name is read as shows as this name if the name is no number, or the one way in which the
number is written. -/
theorem toText_read_eq_iff (h : IsNameable name) :
    (Param.read name).toText = name ↔
      ∀ n, Number.readInt64? name.toList = some n → Number.decimal n.toInt = name.toList := by
  cases hnumber : Number.readInt64? name.toList with
  | none =>
    have hread : Param.read name = .text (Text.trim name) :=
      Param.read_of_eq_none (by rw [h.trimmed, hnumber])
    simp [hread, Param.toText, h.trimmed]
  | some n =>
    have hread : Param.read name = .int n := Param.read_of_eq_some (by rw [h.trimmed, hnumber])
    rw [hread, ← String.toList_inj]
    simp [Param.toText]

end IsNameable

/-! ### Agreeing fields -/

/-- Two fields agree: both are missing or null, or both are there with equal values. -/
def Record.Agree (r : Record) (field other : String) : Prop :=
  (r.present? field = none ∧ r.present? other = none) ∨
    ∃ v u, r.present? field = some v ∧ r.present? other = some u ∧ v.same u = true

theorem Rule.Checks.same_iff_agree (r : Record) (field : String) (today : Date) (param : Param)
    (params : List Param) :
    Checks.same ⟨r, field, today⟩ (param :: params) = true ↔ r.Agree field param.toText := by
  unfold Checks.same Record.Agree Subject.value? Subject.valueOf?
  cases r.present? field <;> cases htheirs : r.present? param.toText <;> simp [htheirs]

/-- In a record with one field two fields agree if both or neither is this field. -/
theorem Record.agree_singleton_iff (field other name text : String) :
    Record.Agree (Dict.ofList [(name, .text text)]) field other ↔
      (field = name ↔ other = name) := by
  have hpresent : ∀ key : String, Record.present? (Dict.ofList [(name, .text text)]) key =
      if key = name then some (.text text) else none := by
    intro key
    rw [Record.present?, Dict.get?_ofList_singleton]
    by_cases hkey : key = name
    · rw [if_pos hkey]
      rfl
    · rw [if_neg hkey]
      rfl
  have hsame : (Value.text text).same (.text text) = true := by
    show (text == text) = true
    exact beq_self_eq_true text
  unfold Record.Agree
  rw [hpresent, hpresent]
  by_cases hfield : field = name <;> by_cases hother : other = name <;>
    simp [hfield, hother, hsame]

/-! ### Validating -/

/-- The message that the rule `same` has by default. -/
theorem fill_same (field other : String) :
    fill "The %s must match with %s" [field, other] =
      "The " ++ field ++ " must match with " ++ other := by
  have hparse : parse "The %s must match with %s" =
      "The ".toList.map Piece.literal ++ Piece.next .text ::
        (" must match with ".toList.map Piece.literal ++ [Piece.next .text]) := rfl
  have hbehind : fillFrom [field, other] 1
      (" must match with ".toList.map Piece.literal ++ [Piece.next .text]) =
      " must match with ".toList ++ other.toList := by
    rw [fillFrom_literals]
    simp [fillFrom, Style.show]
  rw [fill, hparse, fillFrom_literals, ← String.toList_inj, String.toList_ofList]
  show "The ".toList ++ (field.toList ++ fillFrom [field, other] 1 _) = _
  rw [hbehind, String.toList_append, String.toList_append, String.toList_append,
    List.append_assoc, List.append_assoc]

namespace Examiner

/-- Validating a field with a chain compares it with another field: the chain compiles, the field
fails if and only if the two do not agree, and with the default message it is told so by both
names. -/
def CompareFields (x : Examiner) (field text other : String) : Prop :=
  ∀ today r w, ∃ failures, x.validate today r (Dict.ofList [(field, text)]) w = .ok failures ∧
    (failures.get? field = none ↔ r.Agree field other) ∧
    ∀ message, failures.get? field = some message →
      w.fieldTemplate? field "same" = none → w.rules.get? "same" = none →
      field.toList <:+: message.toList ∧ other.toList <:+: message.toList

/-- A chain compares with two fields only if they agree alike. -/
theorem CompareFields.agree_iff {x : Examiner} {field text other other' : String}
    (h : x.CompareFields field text other) (h' : x.CompareFields field text other') (today : Date)
    (r : Record) : r.Agree field other ↔ r.Agree field other' := by
  obtain ⟨failures, hrun, hnone, -⟩ := h today r .empty
  obtain ⟨failures', hrun', hnone', -⟩ := h' today r .empty
  rw [hrun] at hrun'
  rw [← hnone, ← hnone', Except.ok.inj hrun']

/-- The message of the rule `same` if nothing has been worded in another way. -/
theorem messageFor_same [PhoneDirectory] (strict : Bool) {w : Wording} {field : String}
    (hfield : w.fieldTemplate? field "same" = none) (hrules : w.rules.get? "same" = none)
    (param : Param) :
    messageFor ⟨.standard, strict⟩ w field ⟨"same", [param]⟩ =
      "The " ++ field ++ " must match with " ++ param.toText := by
  have htemplate : w.template? .standard field "same" = some "The %s must match with %s" := by
    rw [w.template?_eq, hfield, hrules, Registry.message?_standard]
    rfl
  rw [messageFor, htemplate]
  exact fill_same field param.toText

/-- What validating with the rule `same` gives. -/
theorem validate_same_eq [PhoneDirectory] (strict : Bool) {name : String}
    (hname : IsNameable name) (field : String) (today : Date) (r : Record) (w : Wording) :
    ∃ failures, validate ⟨.standard, strict⟩ today r (Dict.ofList [(field, "same:" ++ name)]) w =
        .ok failures ∧
      (failures.get? field = none ↔ r.Agree field (Param.read name).toText) ∧
      (failures.get? field ≠ none → w.fieldTemplate? field "same" = none →
        w.rules.get? "same" = none → failures.get? field =
          some ("The " ++ field ++ " must match with " ++ (Param.read name).toText)) := by
  have hrule : Registry.standard.get? "same" =
      some ⟨Checks.same, "The %s must match with %s", 1⟩ := by
    rw [Registry.get?_standard]
    rfl
  have hproblem : chainProblem? ⟨.standard, strict⟩ ⟨field, [⟨"same", [Param.read name]⟩]⟩ =
      none := by
    unfold chainProblem? callProblem?
    cases strict with
    | false => rfl
    | true => simp [hrule]
  obtain ⟨compiled, hcompiled⟩ := exists_compile_singleton (hname.read_same field) hproblem
  have htext : (Dict.ofList [(field, "same:" ++ name)]).get? field = some ("same:" ++ name) := by
    rw [Dict.get?_ofList_singleton, if_pos rfl]
  refine ⟨_, validate_of_compile hcompiled today r w, ?_⟩
  rw [get?_examine_of_call hcompiled htext (hname.read_same field) hrule,
    ← Checks.same_iff_agree r field today (Param.read name) []]
  by_cases hcheck : Checks.same ⟨r, field, today⟩ [Param.read name] = true
  · rw [if_pos hcheck]
    exact ⟨iff_of_true rfl hcheck, fun hfails => absurd rfl hfails⟩
  · rw [if_neg hcheck]
    refine ⟨iff_of_false (by simp) hcheck, fun _ hfield hrules => ?_⟩
    rw [messageFor_same strict hfield hrules]

/-- **The rule `same` compares with the field whose name it writes anew.**  For every name that
can stand in a parameter, the field is compared with the one that the parameter shows.  This is
the field that was named if and only if the name does not read as a number of 64 bits, or is the
way in which this number is written. -/
theorem validate_same [PhoneDirectory] (strict : Bool) (field : String) {name : String}
    (hname : IsNameable name) :
    CompareFields ⟨.standard, strict⟩ field ("same:" ++ name) (Param.read name).toText ∧
    (CompareFields ⟨.standard, strict⟩ field ("same:" ++ name) name ↔
      ∀ n, Number.readInt64? name.toList = some n → Number.decimal n.toInt = name.toList) := by
  have hshown : CompareFields ⟨.standard, strict⟩ field ("same:" ++ name)
      (Param.read name).toText := by
    intro today r w
    obtain ⟨failures, hrun, hnone, hmessage⟩ := validate_same_eq strict hname field today r w
    refine ⟨failures, hrun, hnone, fun message hget hfield hrules => ?_⟩
    have hfails : failures.get? field ≠ none := by simp [hget]
    rw [hmessage hfails hfield hrules] at hget
    rw [← Option.some.inj hget]
    rw [String.toList_append, String.toList_append, String.toList_append]
    constructor
    · have hfront : field.toList <:+: "The ".toList ++ field.toList :=
        (List.suffix_append _ _).isInfix
      rw [List.append_assoc]
      exact hfront.trans (List.prefix_append _ _).isInfix
    · exact (List.suffix_append _ _).isInfix
  refine ⟨hshown, ?_⟩
  rw [← hname.toText_read_eq_iff]
  constructor
  · intro h
    by_contra hne
    -- a record in which the field that was named is there, and no other
    have hiff := h.agree_iff hshown ⟨2000, 1, 1, by decide⟩ (Dict.ofList [(name, .text "")])
    rw [Record.agree_singleton_iff, Record.agree_singleton_iff] at hiff
    by_cases hfield : field = name
    · exact hne ((hiff.1 (iff_of_true hfield rfl)).1 hfield)
    · exact hfield ((hiff.2 (iff_of_false hfield hne)).2 rfl)
  · intro h
    rwa [h] at hshown

open TwoCountries in
/-- A name that is no number is compared with. -/
theorem validate_same_of_password :
    IsNameable "password" ∧
    CompareFields ⟨.standard, true⟩ "confirm" ("same:" ++ "password") "password" := by
  have hname : IsNameable "password" :=
    ⟨by decide, rfl, by decide, by decide⟩
  have hnumber : Number.readInt64? "password".toList = none := rfl
  refine ⟨hname, (validate_same true "confirm" hname).2.2 fun n hn => ?_⟩
  rw [hnumber] at hn
  cases hn

open TwoCountries in
/-- A field that agrees with the field `+07` fails, and is told to match with `7`. -/
theorem validate_same_misses :
    let r : Record := Dict.ofList [("f", .text "x"), ("+07", .text "x")]
    IsNameable "+07" ∧ r.Agree "f" "+07" ∧
    ∃ failures, validate ⟨.standard, false⟩ ⟨2024, 6, 15, by decide⟩ r
        (Dict.ofList [("f", "same:" ++ "+07")]) .empty = .ok failures ∧
      failures.get? "f" = some "The f must match with 7" := by
  intro r
  have hname : IsNameable "+07" := ⟨by decide, rfl, by decide, by decide⟩
  obtain ⟨failures, hrun, hnone, hmessage⟩ :=
    validate_same_eq false hname "f" ⟨2024, 6, 15, by decide⟩ r .empty
  have hdiffer : ¬ r.Agree "f" (Param.read "+07").toText := by
    rintro (⟨hmine, -⟩ | ⟨-, u, -, htheirs, -⟩)
    · cases hmine
    · cases htheirs
  refine ⟨hname, .inr ⟨.text "x", .text "x", rfl, rfl, by decide⟩, failures, hrun, ?_⟩
  exact hmessage (mt hnone.1 hdiffer) rfl rfl

end Examiner

end Intake
