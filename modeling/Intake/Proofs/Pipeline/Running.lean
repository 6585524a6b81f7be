import Intake.Pipeline
import Intake.Proofs.Cleaning.Fields
import Intake.Proofs.Examiner.Compiling
import Intake.Proofs.Text.Stripping

/-!
# Running a pipeline

A run compiles all chains, resolves all tags after that, and only then looks at the record.
So whether it fails, and with which problem, is decided by the rule strings.

* `Pipeline.FirstProblem` is the problem that a run stops at.
* `Pipeline.run_eq_error_iff`: a run on any record stops at it.
* `Pipeline.run_eq_ok_iff`: a run that succeeds has cleaned and examined the record.
* `Pipeline.exists_firstProblem_iff`: there is a first problem unless everything compiles.
* `Pipeline.run_settles_rules_first` spells out in which order a run looks at what, in terms of
  compiling, cleaning and validating alone.
-/

namespace Intake

open Rule Message Cleaning

/-! ### Split rule strings -/

theorem entries_tagsOf (fields : Dict String) :
    (tagsOf fields).entries = fields.entries.map fun e => (e.1, tagPart e.2) := rfl

theorem get?_tagsOf (fields : Dict String) (field : String) :
    (tagsOf fields).get? field = (fields.get? field).map tagPart :=
  Dict.get?_map _ fields field

theorem get?_chainsOf (fields : Dict String) (field : String) :
    (chainsOf fields).get? field = (fields.get? field).bind chainPart? :=
  Dict.get?_filterMap _ fields field

/-! ### Tags -/

/-- A tag that cannot be read is reported by its trimmed name. -/
theorem Cleaning.Tag.read_eq_error {name : String} {problem : Problem}
    (h : Tag.read name = .error problem) : problem = .unknownTag (Text.trim name) := by
  unfold Tag.read at h
  split at h
  · cases h
  · exact (Except.error.inj h).symm

/-- Whether some tag has this name. -/
def Cleaning.Tag.isKnown (name : String) : Bool :=
  all.any (·.name == name)

/-- The tag in a rule string is written without white space around it. -/
theorem trim_tagPart (rules : String) : Text.trim (tagPart rules) = tagPart rules := by
  unfold tagPart
  split <;> exact Text.trim_trim _

theorem isKnown_tagPart_iff (rules : String) :
    Tag.isKnown (tagPart rules) = true ↔ ∃ tag, Tag.read (tagPart rules) = .ok tag := by
  rw [Tag.read, trim_tagPart, Tag.isKnown, ← List.isSome_find?]
  cases Tag.all.find? (·.name == tagPart rules) <;> simp

theorem not_isKnown_tagPart_iff (rules : String) :
    (!Tag.isKnown (tagPart rules)) = true ↔
      ∃ problem, Tag.read (tagPart rules) = .error problem := by
  rw [Bool.not_eq_true', ← Bool.not_eq_true, isKnown_tagPart_iff]
  cases Tag.read (tagPart rules) <;> simp

/-- If tags cannot be resolved, the first field whose tag is unknown is the reason. -/
theorem resolve_tagsOf_eq_error_iff (fields : Dict String) (problem : Problem) :
    Policy.resolve (tagsOf fields) = .error problem ↔
      ∃ e, fields.entries.find? (fun e => !Tag.isKnown (tagPart e.2)) = some e ∧
        problem = .unknownTag (tagPart e.2) := by
  rw [Policy.resolve_eq_error_iff, entries_tagsOf, firstFailure_map_items,
    firstFailure_iff_find? fun e _ => not_isKnown_tagPart_iff e.2]
  refine exists_congr fun e => and_congr_right fun hfind => ?_
  have hunknown := List.find?_some hfind
  obtain ⟨problem', h⟩ := (not_isKnown_tagPart_iff e.2).1 hunknown
  obtain rfl := Tag.read_eq_error h
  rw [h, trim_tagPart, Except.error.injEq]
  exact eq_comm

theorem exists_resolve_tagsOf_iff (fields : Dict String) :
    (∃ tags, Policy.resolve (tagsOf fields) = .ok tags) ↔
      ∀ e ∈ fields.entries, Tag.isKnown (tagPart e.2) = true := by
  rw [Policy.exists_resolve_eq_ok_iff, entries_tagsOf, List.forall_mem_map]
  exact forall₂_congr fun e _ => (isKnown_tagPart_iff e.2).symm

namespace Pipeline

/-! ### The first problem -/

/-- The problem that a run stops at: that of the first chain, in the order of the fields, that
does not compile, and if all chains compile, that of the first unknown tag. -/
inductive FirstProblem (x : Examiner) (fields : Dict String) : Problem → Prop where
  | chain {problem : Problem}
      (first : FirstFailure (fun e => x.compileField e.1 e.2) (chainsOf fields).entries
        problem) : FirstProblem x fields problem
  | tag {name : String}
      (compiled : ∀ e ∈ (chainsOf fields).entries,
        ∃ chain, x.compileField e.1 e.2 = .ok chain)
      (first : FirstFailure (fun e => Tag.read e.2) (tagsOf fields).entries
        (.unknownTag name)) : FirstProblem x fields (.unknownTag name)

variable {x : Examiner} {fields : Dict String}

/-- If some chain does not compile, tags do not matter. -/
theorem firstProblem_iff_of_compile_error {problem : Problem}
    (h : x.compile (chainsOf fields) = .error problem) (problem' : Problem) :
    FirstProblem x fields problem' ↔ problem = problem' := by
  constructor
  · intro hfirst
    cases hfirst with
    | chain first =>
      rw [(x.compile_eq_error_iff _ _).2 first] at h
      exact (Except.error.inj h).symm
    | tag compiled first =>
      obtain ⟨chains, hchains⟩ := (x.exists_compile_eq_ok_iff _).2 compiled
      rw [hchains] at h
      cases h
  · intro hsame
    subst hsame
    exact .chain ((x.compile_eq_error_iff _ _).1 h)

/-- If all chains compile, the first unknown tag is the first problem. -/
theorem firstProblem_iff_of_compile_ok {chains : List Chain}
    (h : x.compile (chainsOf fields) = .ok chains) (problem : Problem) :
    FirstProblem x fields problem ↔ Policy.resolve (tagsOf fields) = .error problem := by
  rw [Policy.resolve_eq_error_iff]
  constructor
  · intro hfirst
    cases hfirst with
    | chain first =>
      rw [(x.compile_eq_error_iff _ _).2 first] at h
      cases h
    | tag compiled first => exact first
  · intro hfirst
    obtain ⟨e, -, he⟩ := hfirst.exists_mem
    obtain rfl := Tag.read_eq_error he
    exact .tag ((x.exists_compile_eq_ok_iff _).1 ⟨chains, h⟩) hfirst

/-- There is a first problem unless all chains compile and all tags are known. -/
theorem exists_firstProblem_iff (x : Examiner) (fields : Dict String) :
    (∃ problem, FirstProblem x fields problem) ↔
      ¬ ∃ chains tags, x.compile (chainsOf fields) = .ok chains ∧
        Policy.resolve (tagsOf fields) = .ok tags := by
  cases hchains : x.compile (chainsOf fields) with
  | error problem =>
    constructor
    · rintro - ⟨chains, tags, h, -⟩
      cases h
    · intro _
      exact ⟨problem, (firstProblem_iff_of_compile_error hchains problem).2 rfl⟩
  | ok chains =>
    simp only [firstProblem_iff_of_compile_ok hchains]
    cases htags : Policy.resolve (tagsOf fields) with
    | error problem =>
      constructor
      · rintro - ⟨chains', tags, -, h⟩
        cases h
      · intro _
        exact ⟨problem, rfl⟩
    | ok tags =>
      constructor
      · rintro ⟨problem, h⟩
        cases h
      · intro h
        exact absurd ⟨chains, tags, rfl, rfl⟩ h

/-! ### What a run does -/

theorem run_eq (p : Pipeline) (today : Date) (r : Record) (fields : Dict String)
    (w : Wording) :
    p.run today r fields w =
      (p.examiner.compile (chainsOf fields)).bind fun chains =>
        (Policy.resolve (tagsOf fields)).map fun tags =>
          ⟨p.policy.cleanWith tags r,
            p.examiner.examine today (p.policy.cleanWith tags r) chains w⟩ := by
  unfold run Policy.clean
  cases p.examiner.compile (chainsOf fields) with
  | error problem => rfl
  | ok chains => cases Policy.resolve (tagsOf fields) <;> rfl

/-- **A run on any record stops at the first problem.** -/
theorem run_eq_error_iff (p : Pipeline) (today : Date) (r : Record) (fields : Dict String)
    (w : Wording) (problem : Problem) :
    p.run today r fields w = .error problem ↔ FirstProblem p.examiner fields problem := by
  rw [run_eq]
  cases hchains : p.examiner.compile (chainsOf fields) with
  | error problem' =>
    rw [firstProblem_iff_of_compile_error hchains]
    exact ⟨fun h => Except.error.inj h, fun h => congrArg Except.error h⟩
  | ok chains =>
    rw [firstProblem_iff_of_compile_ok hchains]
    exact map_eq_error_iff _ _ problem

/-- A run that succeeds has compiled all chains, resolved all tags, and cleaned and examined
the record by them. -/
theorem run_eq_ok_iff (p : Pipeline) (today : Date) (r : Record) (fields : Dict String)
    (w : Wording) (o : Outcome) :
    p.run today r fields w = .ok o ↔
      ∃ chains tags, p.examiner.compile (chainsOf fields) = .ok chains ∧
        Policy.resolve (tagsOf fields) = .ok tags ∧
        o = ⟨p.policy.cleanWith tags r,
          p.examiner.examine today (p.policy.cleanWith tags r) chains w⟩ := by
  rw [run_eq]
  constructor
  · intro h
    cases hchains : p.examiner.compile (chainsOf fields) with
    | error problem =>
      rw [hchains] at h
      cases h
    | ok chains =>
      cases htags : Policy.resolve (tagsOf fields) with
      | error problem =>
        rw [hchains, htags] at h
        cases h
      | ok tags =>
        rw [hchains, htags] at h
        exact ⟨chains, tags, rfl, rfl, (Except.ok.inj h).symm⟩
  · rintro ⟨chains, tags, hchains, htags, rfl⟩
    rw [hchains, htags]
    rfl

/-- **Rule strings are settled before records are touched.**  Whether a run fails, and with which
problem, depends on neither the record nor the wording.  It is the problem of compiling the
chains, or if they compile, the first unknown tag in the order of the fields, whether the record
has this field or not.  A run that succeeds has cleaned the record by the tags, and its failures
are those of validating the cleaned record by the chains. -/
theorem run_settles_rules_first (p : Pipeline) (fields : Dict String) :
    (∀ problem today r w today' r' w', p.run today r fields w = .error problem ↔
      p.run today' r' fields w' = .error problem) ∧
    ∀ today r w,
      (∀ problem, p.run today r fields w = .error problem ↔
        p.examiner.compile (chainsOf fields) = .error problem ∨
          (∃ chains, p.examiner.compile (chainsOf fields) = .ok chains) ∧
            ∃ e, fields.entries.find? (fun e => !Tag.isKnown (tagPart e.2)) = some e ∧
              problem = .unknownTag (tagPart e.2)) ∧
      ((∃ o, p.run today r fields w = .ok o) ↔
        (∃ chains, p.examiner.compile (chainsOf fields) = .ok chains) ∧
          ∀ e ∈ fields.entries, Tag.isKnown (tagPart e.2) = true) ∧
      ∀ o, p.run today r fields w = .ok o ↔
        p.policy.clean (tagsOf fields) r = .ok o.record ∧
          p.examiner.validate today o.record (chainsOf fields) w = .ok o.failures := by
  refine ⟨?_, fun today r w => ⟨?_, ?_, ?_⟩⟩
  · intro problem today r w today' r' w'
    rw [run_eq_error_iff, run_eq_error_iff]
  · intro problem
    rw [run_eq_error_iff, ← resolve_tagsOf_eq_error_iff]
    cases hchains : p.examiner.compile (chainsOf fields) with
    | error problem' =>
      rw [firstProblem_iff_of_compile_error hchains]
      simp
    | ok chains =>
      rw [firstProblem_iff_of_compile_ok hchains]
      simp
  · rw [← exists_resolve_tagsOf_iff]
    simp only [run_eq_ok_iff]
    constructor
    · intro h
      obtain ⟨o, chains, tags, hchains, htags, -⟩ := h
      exact ⟨⟨chains, hchains⟩, tags, htags⟩
    · intro h
      obtain ⟨⟨chains, hchains⟩, tags, htags⟩ := h
      exact ⟨_, chains, tags, hchains, htags, rfl⟩
  · intro o
    rw [run_eq_ok_iff, Policy.clean_eq_map, map_eq_ok_iff, Examiner.validate_eq_map, map_eq_ok_iff]
    constructor
    · intro h
      obtain ⟨chains, tags, hchains, htags, rfl⟩ := h
      exact ⟨⟨tags, htags, rfl⟩, chains, hchains, rfl⟩
    · intro h
      obtain ⟨⟨tags, htags, hrecord⟩, chains, hchains, hfailures⟩ := h
      refine ⟨chains, tags, hchains, htags, ?_⟩
      rw [hrecord, hfailures]

end Pipeline

end Intake
