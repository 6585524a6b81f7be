import Intake.Phone.Plans
import Intake.Proofs.Examiner.Rejections

/-!
# The history of a registry

A registry is built from nothing, or from the standard rules, by adding rules and default messages
one after the other.  Each name has the rule that was added last for it, and the message that came
last for it, be it with a rule or alone.

* `Addition` is one such step, and `Registry.after` a registry after several of them.
* `Addition.lastRule?` and `Addition.lastMessage?`: what a history leaves for a name.
* `Registry.get?_after` and `Registry.message?_after`: the history decides what is found.
* `Registry.registry_keeps_last_additions`: what holds of every registry with a history, and of
  every examination with it.
-/

namespace Intake

open Rule Message

namespace Rule

/-! ### Additions -/

/-- A step of building a registry. -/
inductive Addition where
  | rule (name : String) (rule : Definition)
  /-- A default message alone. -/
  | message (name text : String)

namespace Addition

/-- The rule that a step adds for a name. -/
def rule? (name : String) : Addition → Option Definition
  | .rule other added => if name = other then some added else none
  | .message .. => none

/-- The default message that a step adds for a name. -/
def message? (name : String) : Addition → Option String
  | .rule other added => if name = other then some added.message else none
  | .message other text => if name = other then some text else none

/-- The rule that was added last for a name. -/
def lastRule? (name : String) (history : List Addition) : Option Definition :=
  (history.filterMap (rule? name)).getLast?

/-- The default message that was added last for a name. -/
def lastMessage? (name : String) (history : List Addition) : Option String :=
  (history.filterMap (message? name)).getLast?

/-- A rule comes with a message. -/
theorem message?_of_rule? {name : String} {a : Addition} {definition : Definition}
    (h : a.rule? name = some definition) : a.message? name = some definition.message := by
  cases a with
  | rule other added =>
    simp only [rule?, Option.ite_none_right_eq_some, Option.some.injEq] at h
    obtain ⟨hname, rfl⟩ := h
    exact if_pos hname
  | message other text => cases h

/-- **A history that leaves a rule for a name leaves a message for it.** -/
theorem isSome_lastMessage? {name : String} {history : List Addition}
    (h : (lastRule? name history).isSome = true) : (lastMessage? name history).isSome = true := by
  unfold lastRule? at h
  unfold lastMessage?
  rw [List.getLast?_isSome] at h ⊢
  obtain ⟨rule, hrule⟩ := List.exists_mem_of_ne_nil _ h
  obtain ⟨a, ha, hadds⟩ := List.mem_filterMap.1 hrule
  exact List.ne_nil_of_mem (List.mem_filterMap.2 ⟨a, ha, message?_of_rule? hadds⟩)

end Addition

/-! ### Registries with a history -/

namespace Registry

def add (r : Registry) : Addition → Registry
  | .rule name rule => r.define name rule
  | .message name text => r.describe name text

/-- The registry after additions to it. -/
def after (r : Registry) (additions : List Addition) : Registry :=
  additions.foldl add r

theorem get?_add (r : Registry) (a : Addition) (name : String) :
    (r.add a).get? name = (a.rule? name).or (r.get? name) := by
  cases a with
  | rule other rule =>
    show (r.rules.insert other rule).get? name = (if name = other then some rule else none).or _
    rw [Dict.get?_insert]
    by_cases h : name = other
    · rw [if_pos h, if_pos h, Option.some_or]
    · rw [if_neg h, if_neg h, Option.none_or]
      rfl
  | message other text => rfl

theorem message?_add (r : Registry) (a : Addition) (name : String) :
    (r.add a).message? name = (a.message? name).or (r.message? name) := by
  have hinsert : ∀ other text, (r.messages.insert other text).get? name =
      (if name = other then some text else none).or (r.message? name) := by
    intro other text
    rw [Dict.get?_insert]
    by_cases h : name = other
    · rw [if_pos h, if_pos h, Option.some_or]
    · rw [if_neg h, if_neg h, Option.none_or]
      rfl
  cases a with
  | rule other rule => exact hinsert other rule.message
  | message other text => exact hinsert other text

/-- What is found after all additions if each puts what it adds before what was there. -/
theorem foldl_add_eq {α : Type} (find : Registry → Option α) {adds : Addition → Option α}
    (step : ∀ r a, find (add r a) = (adds a).or (find r)) (additions : List Addition)
    (r : Registry) :
    find (additions.foldl add r) = ((additions.filterMap adds).getLast?).or (find r) := by
  induction additions generalizing r with
  | nil => rfl
  | cons a rest ih =>
    rw [List.foldl_cons, ih, step, ← Option.or_assoc]
    cases hadds : adds a with
    | none => rw [List.filterMap_cons_none hadds, Option.or_none]
    | some value =>
      rw [List.filterMap_cons_some hadds, List.getLast?_cons]
      cases (rest.filterMap adds).getLast? <;> rfl

theorem get?_after (r : Registry) (additions : List Addition) (name : String) :
    (r.after additions).get? name = (Addition.lastRule? name additions).or (r.get? name) :=
  foldl_add_eq (fun r => r.get? name) (fun r a => r.get?_add a name) additions r

theorem message?_after (r : Registry) (additions : List Addition) (name : String) :
    (r.after additions).message? name =
      (Addition.lastMessage? name additions).or (r.message? name) :=
  foldl_add_eq (fun r => r.message? name) (fun r a => r.message?_add a name) additions r

theorem after_append (r : Registry) (front back : List Addition) :
    r.after (front ++ back) = (r.after front).after back :=
  List.foldl_append

/-! ### Where histories begin -/

/-- The registries that others are built from. -/
inductive Origin where
  | empty
  | standard
deriving DecidableEq, Repr

namespace Origin

def registry [PhoneDirectory] : Origin → Registry
  | .empty => .empty
  | .standard => .standard

/-- The additions that make up an origin. -/
def history [PhoneDirectory] : Origin → List Addition
  | .empty => []
  | .standard =>
    standardRules.map (fun e => Addition.rule e.1 e.2) ++
      standardMessages.map (fun e => Addition.message e.1 e.2)

/-- Every origin has its history. -/
theorem registry_eq_after [PhoneDirectory] (origin : Origin) :
    origin.registry = Registry.empty.after origin.history := by
  cases origin with
  | empty => rfl
  | standard =>
    show Registry.standard = _
    rw [history, after_append, after, after, List.foldl_map, List.foldl_map]
    rfl

end Origin

section

variable [PhoneDirectory] (origin : Origin) (additions : List Addition) (name : String)

theorem get?_after_origin : (origin.registry.after additions).get? name =
    Addition.lastRule? name (origin.history ++ additions) := by
  rw [origin.registry_eq_after, ← after_append, get?_after]
  exact Option.or_none

theorem message?_after_origin : (origin.registry.after additions).message? name =
    Addition.lastMessage? name (origin.history ++ additions) := by
  rw [origin.registry_eq_after, ← after_append, message?_after]
  exact Option.or_none

/-- Every rule that additions leave has a default message. -/
theorem isSome_message?_after (h : ((origin.registry.after additions).get? name).isSome = true) :
    ((origin.registry.after additions).message? name).isSome = true := by
  rw [get?_after_origin] at h
  rw [message?_after_origin]
  exact Addition.isSome_lastMessage? h

/-- **A registry is what has been added last.**  Whatever is added to the empty registry or to the
standard one, every name has the rule that was added last for it and the message that was added
last for it, with a rule or alone, and has a message if it has a rule.  The names with a rule are
listed in increasing order, each once.  So every rejection in an examination finds a template, and
the failures are the same whatever message there were for rules without one. -/
theorem registry_keeps_last_additions (origin : Origin) (additions : List Addition) :
    let r := origin.registry.after additions
    (∀ name, r.get? name = Addition.lastRule? name (origin.history ++ additions) ∧
      r.message? name = Addition.lastMessage? name (origin.history ++ additions) ∧
      ((r.get? name).isSome = true → (r.message? name).isSome = true) ∧
      (name ∈ r.names ↔ (r.get? name).isSome = true)) ∧
    r.names.Pairwise (· < ·) ∧
    ∀ (strict : Bool) (today : Date) (record : Record) (chains : List Chain) (w : Wording),
      let rejected := Examiner.rejected ⟨r, strict⟩ today record chains
      (∀ use ∈ rejected, (w.template? r use.1 use.2.name).isSome = true) ∧
      ∀ fallback : String, Examiner.examine ⟨r, strict⟩ today record chains w =
        Dict.ofList (rejected.map fun use =>
          (use.1, fill ((w.template? r use.1 use.2.name).getD fallback)
            (use.1 :: use.2.params.map Param.toText))) := by
  intro r
  refine ⟨fun name => ⟨get?_after_origin origin additions name,
    message?_after_origin origin additions name, isSome_message?_after origin additions name,
    r.rules.mem_keys_iff name⟩, r.rules.ordered_keys, ?_⟩
  intro strict today record chains w rejected
  have hfound : ∀ use ∈ rejected, (w.template? r use.1 use.2.name).isSome = true := by
    intro use huse
    obtain ⟨rule, hrule, -⟩ := (Option.any_eq_true _ _).1 (List.mem_filter.1 huse).2
    -- a rule that rejects is registered, and so has a default message
    have hmessage : (r.message? use.2.name).isSome = true :=
      isSome_message?_after origin additions use.2.name (Option.isSome_of_eq_some hrule)
    rw [w.template?_eq, Option.isSome_or, hmessage, Bool.or_true]
  refine ⟨hfound, fun fallback => ?_⟩
  rw [Examiner.examine_eq_ofList]
  refine congrArg Dict.ofList (List.map_congr_left fun use huse => ?_)
  obtain ⟨template, htemplate⟩ := Option.isSome_iff_exists.1 (hfound use huse)
  rw [Examiner.messageFor, htemplate]
  rfl

end

open TwoCountries in
/-- A rule that is added to the standard ones and then worded anew rejects with the new words. -/
theorem registry_keeps_last_additions_of_taken :
    let r := Origin.standard.registry.after
      [.rule "taken" ⟨fun _ _ => false, "The %s is taken", 0⟩,
        .message "taken" "Choose another %s"]
    let chains : List Chain := [⟨"name", [⟨"required", []⟩, ⟨"taken", []⟩]⟩]
    let w : Wording := .empty
    ("name", ⟨"taken", []⟩) ∈
        Examiner.rejected ⟨r, true⟩ ⟨2024, 6, 15, by decide⟩ ∅ chains ∧
      (w.template? r "name" "taken").isSome = true ∧
      (r.get? "taken").isSome = true ∧ r.message? "taken" = some "Choose another %s" ∧
      (r.message? "taken").isSome = true := by
  intro r chains w
  obtain ⟨hnames, -, hruns⟩ := registry_keeps_last_additions .standard
    [.rule "taken" ⟨fun _ _ => false, "The %s is taken", 0⟩, .message "taken" "Choose another %s"]
  obtain ⟨-, hmessage, hdescribed, -⟩ := hnames "taken"
  have hrule : (r.get? "taken").isSome = true := by rfl
  have hrejected : ("name", ⟨"taken", []⟩) ∈
      Examiner.rejected ⟨r, true⟩ ⟨2024, 6, 15, by decide⟩ ∅ chains :=
    List.mem_filter.2 ⟨by simp [Examiner.uses, chains], by rfl⟩
  exact ⟨hrejected, (hruns true ⟨2024, 6, 15, by decide⟩ ∅ chains w).1 _ hrejected, hrule,
    hmessage, hdescribed hrule⟩

end Registry

end Rule

end Intake
