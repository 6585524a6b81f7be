import Intake.Phone.Plans
import Intake.Proofs.Cleaning.Fields
import Intake.Proofs.Examiner.Rejections
import Intake.Proofs.Pipeline.Running
import Intake.Proofs.Rule.Reads

/-!
# Fields do not interfere

Two records are run by the same rule strings.  What comes out for a field depends on nothing
but this field, and on the fields that it is compared with.

* `Compares fields field other` says that a rule `same` in the chain of `field` names `other`.
* `Pipeline.run_independent`: records that agree on a field and on what it is compared with
  get the same cleaned value and the same message for it.
-/

namespace Intake

open Rule Message Cleaning

/-! ### Compared fields -/

/-- A rule `same` in the chain of a field names another field by its first parameter. -/
def Compares (fields : Dict String) (field other : String) : Prop :=
  ∃ rules text chain call, fields.get? field = some rules ∧ chainPart? rules = some text ∧
    Chain.read field text = .ok chain ∧ call ∈ chain.calls ∧ call.name = "same" ∧
    call.params.head?.map Param.toText = some other

theorem compares_of_compile {x : Examiner} {fields : Dict String} {chains : List Chain}
    (h : x.compile (chainsOf fields) = .ok chains) {chain : Chain} (hchain : chain ∈ chains)
    {call : Call} (hcall : call ∈ chain.calls) {other : String}
    (hother : call.otherField? = some other) : Compares fields chain.field other := by
  obtain ⟨text, htext, hread⟩ := Examiner.exists_text_of_mem_compile h hchain
  have hpart : (fields.get? chain.field).bind chainPart? = some text := by
    rw [← htext, get?_chainsOf]
  obtain ⟨rules, hrules, hpart⟩ := Option.bind_eq_some_iff.1 hpart
  unfold Call.otherField? at hother
  split at hother
  · rename_i hname
    exact ⟨rules, text, chain, call, hrules, hpart, hread, hcall, hname, hother⟩
  · cases hother

/-- Subjects that agree on what a standard rule reads are rejected alike. -/
theorem Examiner.rejects_congr_of_standard [PhoneDirectory] (strict : Bool) {call : Call}
    {s₁ s₂ : Subject} (hvalue : s₁.value? = s₂.value?) (htoday : s₁.today = s₂.today)
    (hother : ∀ other, call.otherField? = some other →
      s₁.valueOf? other = s₂.valueOf? other) :
    Examiner.rejects ⟨.standard, strict⟩ s₁ call =
      Examiner.rejects ⟨.standard, strict⟩ s₂ call := by
  rw [Examiner.rejects_eq_any, Examiner.rejects_eq_any]
  show (Registry.standard.get? call.name).any _ = (Registry.standard.get? call.name).any _
  cases hrule : Registry.standard.get? call.name with
  | none => rfl
  | some rule =>
    rw [Option.any_some, Option.any_some,
      Registry.check_congr_of_standard hrule hvalue htoday hother]

/-- Subjects that agree on a field and on what it is compared with are rejected alike. -/
theorem rejects_congr_of_compile [PhoneDirectory] {strict : Bool} {fields : Dict String}
    {chains : List Chain}
    (h : Examiner.compile ⟨.standard, strict⟩ (chainsOf fields) = .ok chains)
    {chain : Chain} (hchain : chain ∈ chains) {call : Call} (hcall : call ∈ chain.calls)
    (today : Date) {r₁ r₂ : Record} (hfield : r₁.present? chain.field = r₂.present? chain.field)
    (hcompared : ∀ other, Compares fields chain.field other →
      r₁.present? other = r₂.present? other) :
    Examiner.rejects ⟨.standard, strict⟩ ⟨r₁, chain.field, today⟩ call =
      Examiner.rejects ⟨.standard, strict⟩ ⟨r₂, chain.field, today⟩ call := by
  refine Examiner.rejects_congr_of_standard strict hfield rfl ?_
  intro other hother
  exact hcompared other (compares_of_compile h hchain hcall hother)

/-! ### Two runs -/

namespace Pipeline

/-- **Fields do not interfere.**  Take two records that can be run and agree on a field, null
counting as missing.  If they also agree on the fields that it is compared with, it fails in
both runs or in neither, with the same message.  Its cleaned value is the same, null counting
as missing, and the very same if the records agree on it in this way too.  This holds with every
directory of telephone numbers. -/
theorem run_independent [PhoneDirectory] (policy : Policy) (strict : Bool) (today : Date)
    (fields : Dict String) (w : Wording) {r₁ r₂ : Record} {o₁ o₂ : Outcome}
    (h₁ : run ⟨policy, ⟨.standard, strict⟩⟩ today r₁ fields w = .ok o₁)
    (h₂ : run ⟨policy, ⟨.standard, strict⟩⟩ today r₂ fields w = .ok o₂) (field : String)
    (hfield : r₁.present? field = r₂.present? field) :
    ((∀ other, Compares fields field other → r₁.present? other = r₂.present? other) →
      o₁.failures.get? field = o₂.failures.get? field) ∧
    o₁.record.present? field = o₂.record.present? field ∧
    (r₁.get? field = r₂.get? field → o₁.record.get? field = o₂.record.get? field) := by
  obtain ⟨chains, tags, hchains, htags, rfl⟩ := (run_eq_ok_iff _ _ _ _ _ _).1 h₁
  obtain ⟨chains', tags', hchains', htags', rfl⟩ := (run_eq_ok_iff _ _ _ _ _ _).1 h₂
  -- compiling and resolving do not look at the record
  obtain rfl : chains = chains' := Except.ok.inj (hchains.symm.trans hchains')
  obtain rfl : tags = tags' := Except.ok.inj (htags.symm.trans htags')
  refine ⟨?_, policy.present?_cleanWith_congr tags hfield, ?_⟩
  · intro hcompared
    refine Examiner.get?_examine_congr _ today chains w field ?_
    intro chain hchain hchainField call hcall
    subst hchainField
    refine rejects_congr_of_compile hchains hchain hcall today ?_ ?_
    · exact policy.present?_cleanWith_congr tags hfield
    · intro other hother
      exact policy.present?_cleanWith_congr tags (hcompared other hother)
  · intro hget
    show (policy.cleanWith tags r₁).get? field = (policy.cleanWith tags r₂).get? field
    unfold Policy.cleanWith
    rw [Dict.get?_map, Dict.get?_map, hget]

/-- Rule strings that compare a field with another one. -/
def account : Dict String :=
  Dict.ofList [("confirm", "string|required|same:password"), ("note", "string|min:9"),
    ("password", "string"), ("phone", "string|iso:ch")]

theorem eq_of_compares_account {other : String} (h : Compares account "confirm" other) :
    other = "password" := by
  obtain ⟨rules, text, chain, call, hrules, htext, hread, hcall, hname, hother⟩ := h
  have hrules' : account.get? "confirm" = some "string|required|same:password" := by
    decide +kernel
  obtain rfl := Option.some.inj (hrules'.symm.trans hrules)
  have htext' : chainPart? "string|required|same:password" =
      some "required|same:password" := by decide +kernel
  obtain rfl := Option.some.inj (htext'.symm.trans htext)
  have hread' : (Chain.read "confirm" "required|same:password").toOption =
      some ⟨"confirm", [⟨"required", []⟩, ⟨"same", [.text "password"]⟩]⟩ := by decide +kernel
  rw [hread] at hread'
  obtain rfl : chain = _ := Option.some.inj hread'
  simp only [List.mem_cons, List.not_mem_nil, or_false] at hcall
  rcases hcall with rfl | rfl
  · exact absurd hname (by decide)
  · exact (Option.some.inj hother).symm

open TwoCountries in
/-- A note that is too short, or none, a number that exists or does not, and no password in
different ways: the confirmation fails alike. -/
theorem run_independent_of_note :
    let p : Pipeline := ⟨{}, ⟨.standard, true⟩⟩
    let noted : Record :=
      Dict.ofList [("confirm", .text "a"), ("note", .text "b"), ("phone", .text "044 668 18 00")]
    let bare : Record :=
      Dict.ofList [("confirm", .text "a"), ("password", .null), ("phone", .text "12")]
    ∃ o₁ o₂, p.run ⟨2000, 1, 1, by decide⟩ noted account .empty = .ok o₁ ∧
      p.run ⟨2000, 1, 1, by decide⟩ bare account .empty = .ok o₂ ∧
      noted.present? "confirm" = bare.present? "confirm" ∧
      (∀ other, Compares account "confirm" other →
        noted.present? other = bare.present? other) ∧
      o₁.failures.get? "confirm" = o₂.failures.get? "confirm" ∧
      o₁.record.get? "confirm" = o₂.record.get? "confirm" := by
  intro p noted bare
  obtain ⟨o₁, h₁⟩ := exists_eq_ok_of_isOk
    (show (p.run ⟨2000, 1, 1, by decide⟩ noted account .empty).isOk = true by decide +kernel)
  obtain ⟨o₂, h₂⟩ := exists_eq_ok_of_isOk
    (show (p.run ⟨2000, 1, 1, by decide⟩ bare account .empty).isOk = true by decide +kernel)
  have hconfirm : noted.present? "confirm" = bare.present? "confirm" := rfl
  have hcompared : ∀ other, Compares account "confirm" other →
      noted.present? other = bare.present? other := by
    intro other hother
    rw [eq_of_compares_account hother]
    rfl
  obtain ⟨hfailure, -, hcleaned⟩ :=
    run_independent {} true ⟨2000, 1, 1, by decide⟩ account .empty h₁ h₂ "confirm" hconfirm
  exact ⟨o₁, o₂, h₁, h₂, hconfirm, hcompared, hfailure hcompared, hcleaned rfl⟩

end Pipeline

end Intake
