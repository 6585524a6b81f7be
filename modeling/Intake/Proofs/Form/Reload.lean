import Intake.Proofs.Form.Findings
import Intake.Proofs.Json.Rereading
import Intake.Proofs.Message.Reload

/-!
# Saving and reloading forms

A form is saved with all its sections, and what is read from the saved text is the form again,
up to what becomes of its wording.  The wording of a form that has been loaded was read from
a single map, and so it survives.

* `Dialect.dict?_written`: a dictionary that has been written as an object is read again.
* `Form.ofDocument?_toDocument`: what is read from the document of a form.
* `Form.reload_wording_of_read`: the wording of a form that was read survives.
* `Form.load_save`: loading, saving and loading again.
-/

namespace Intake

open Message

/-! ### Dictionaries -/

/-- Members that have been written with texts for keys are read again, if their values are. -/
theorem Dialect.mapM_member?_written {β : Type} {key? : Json.Leaf → Option String}
    {read? : Document Json.Leaf → Option β} {write : β → Document Json.Leaf}
    (hkey : ∀ name, key? (.text name) = some name) (hread : ∀ v, read? (write v) = some v)
    (entries : List (String × β)) :
    (entries.map fun e => (Json.Leaf.text e.1, write e.2)).mapM (Dialect.member? key? read?) =
      some entries := by
  induction entries with
  | nil => rfl
  | cons e rest ih =>
    have hmember : Dialect.member? key? read? (.text e.1, write e.2) = some e := by
      rw [Dialect.member?, hkey, hread]
      rfl
    rw [List.map_cons, List.mapM_cons, hmember, ih]
    rfl

/-- A dictionary that has been written as an object is read again, if its values are. -/
theorem Dialect.dict?_written {β : Type} {key? : Json.Leaf → Option String}
    {read? : Document Json.Leaf → Option β} {write : β → Document Json.Leaf}
    (hkey : ∀ name, key? (.text name) = some name) (hread : ∀ v, read? (write v) = some v)
    (values : Dict β) :
    Dialect.json.dict? key? read?
      (.object (values.entries.map fun e => (.text e.1, write e.2))) = some values := by
  rw [Dialect.dict?, Dialect.mapM_member?_written hkey hread, Option.map_some,
    Dict.ofList_eq_of_ordered values.ordered]

/-- The document of some sections. -/
def ofSections (sections : List (String × Document Json.Leaf)) : Document Json.Leaf :=
  .object (sections.map fun s => (.text s.1, s.2))

/-- Sections with different names are told apart again. -/
theorem Dialect.sections?_ofSections {sections : List (String × Document Json.Leaf)}
    (h : (sections.map (·.1)).Nodup) (names : List String) :
    Dialect.json.sections? names (ofSections sections) = some sections := by
  have hkey : ∀ name, Dialect.json.text? (.text name) = some name := fun _ => rfl
  have hread : ∀ d : Document Json.Leaf, some (id d) = some d := fun _ => rfl
  have hmembers : (sections.map fun s => (Json.Leaf.text s.1, s.2)).mapM
      (Dialect.member? Dialect.json.text? some) = some sections :=
    Dialect.mapM_member?_written hkey hread sections
  have honce : (names.all fun name => decide (sections.countP (·.1 == name) ≤ 1)) = true := by
    rw [List.all_eq_true]
    intro name _
    have hcount := List.nodup_iff_count.1 h name
    rw [List.count_eq_countP, List.countP_map] at hcount
    exact decide_eq_true hcount
  rw [ofSections, Dialect.sections?, hmembers]
  exact if_pos honce

theorem numberless_ofSections {sections : List (String × Document Json.Leaf)}
    (h : ∀ s ∈ sections, Json.Numberless s.2) : Json.Numberless (ofSections sections) :=
  Json.numberless_object id h

namespace Message

theorem texts?_textsDocument (texts : Dict String) :
    Dialect.json.texts? (textsDocument texts) = some texts := by
  have hread : ∀ text : String,
      Dialect.leaf? Dialect.json.text? (.leaf (.text text)) = some text := fun _ => rfl
  exact Dialect.dict?_written (fun _ => rfl) hread texts

theorem Entry.ofDocument?_toDocument (e : Entry) :
    Entry.ofDocument? .json e.toDocument = some e := by
  cases e with
  | rule template => rfl
  | field templates =>
    have htexts := texts?_textsDocument templates
    show Option.map Entry.field (Dialect.json.texts? (textsDocument templates)) = _
    rw [htexts]
    rfl

/-- What is read from a written wording is what a single map keeps of it. -/
theorem Wording.ofDocument?_toDocument (w : Wording) :
    Wording.ofDocument? .json w.toDocument = some w.reload := by
  have hentries : Dialect.json.dict? Dialect.json.text? (Entry.ofDocument? .json) w.toDocument =
      some w.toEntries :=
    Dialect.dict?_written (fun _ => rfl) Entry.ofDocument?_toDocument w.toEntries
  rw [Wording.ofDocument?, hentries]
  rfl

theorem numberless_textsDocument (texts : Dict String) :
    Json.Numberless (textsDocument texts) :=
  Json.numberless_object (fun text => .leaf (.text text)) fun e _ => Json.numberless_text e.2

theorem Wording.numberless_toDocument (w : Wording) : Json.Numberless w.toDocument := by
  have hentry : ∀ e : Entry, Json.Numberless e.toDocument := by
    intro e
    cases e with
    | rule template => exact Json.numberless_text template
    | field templates => exact numberless_textsDocument templates
  exact Json.numberless_object Entry.toDocument fun e _ => hentry e.2

end Message

/-! ### Policies -/

namespace Cleaning

theorem Tag.read_name (tag : Tag) : Tag.read tag.name = .ok tag := by
  cases tag <;> rfl

theorem Policy.ofDocument?_eq_some_iff {α : Type} {d : Dialect α} {document : Document α}
    {p : Policy} :
    Policy.ofDocument? d document = some p ↔
      ∃ sections, d.sections? policySections document = some sections ∧
        Dialect.section? sections "default_tag" .text (Tag.ofDocument? d) = some p.defaultTag ∧
        Dialect.section? sections "trim" true (Dialect.leaf? d.bool?) = some p.trims := by
  unfold Policy.ofDocument?
  simp only [Option.bind_eq_bind, Option.bind_eq_some_iff, Option.pure_def, Option.some.injEq]
  constructor
  · rintro ⟨sections, hsections, tag, htag, trims, htrims, rfl⟩
    exact ⟨sections, hsections, htag, htrims⟩
  · rintro ⟨sections, hsections, htag, htrims⟩
    exact ⟨sections, hsections, p.defaultTag, htag, p.trims, htrims, rfl⟩

/-- The sections that a policy is written in. -/
def Policy.sections (p : Policy) : List (String × Document Json.Leaf) :=
  [("default_tag", .leaf (.text p.defaultTag.name)), ("trim", .leaf (.bool p.trims))]

theorem Policy.ofDocument?_ofSections (p : Policy) :
    Policy.ofDocument? .json (ofSections p.sections) = some p := by
  have hnames : (p.sections.map (·.1)).Nodup := by
    show ["default_tag", "trim"].Nodup
    decide
  have htag : Tag.ofDocument? .json (.leaf (.text p.defaultTag.name)) = some p.defaultTag := by
    have htext : Dialect.leaf? Dialect.json.text? (.leaf (.text p.defaultTag.name)) =
        some p.defaultTag.name := rfl
    rw [Tag.ofDocument?, htext, Option.bind_some, Tag.read_name]
    rfl
  exact Policy.ofDocument?_eq_some_iff.2
    ⟨p.sections, Dialect.sections?_ofSections hnames policySections, htag, rfl⟩

theorem Policy.numberless_ofSections (p : Policy) : Json.Numberless (ofSections p.sections) := by
  refine Intake.numberless_ofSections fun s hs => ?_
  simp only [Policy.sections, List.mem_cons, List.not_mem_nil, or_false] at hs
  rcases hs with rfl | rfl
  · exact Json.numberless_text _
  · exact Json.numberless_bool _

end Cleaning

namespace Form

/-! ### Saved forms -/

theorem read_of_ofJson? {text : String} {f : Form} (h : ofJson? text = some f) :
    Source.read (.json text) = .ok f := by
  show Option.elim (ofJson? text) _ Except.ok = _
  rw [h]
  rfl

theorem read_of_ofYaml? {text : String} {f : Form} (h : ofYaml? text = some f) (path : String) :
    Source.read (.file path (some text)) = .ok f := by
  show Option.elim (ofYaml? text) _ Except.ok = _
  rw [h]
  rfl

theorem ofDocument?_eq_some_iff {α : Type} {d : Dialect α} {document : Document α} {f : Form} :
    ofDocument? d document = some f ↔
      ∃ sections, d.sections? formSections document = some sections ∧
        (sections.lookup "fields").bind d.texts? = some f.fields ∧
        Dialect.section? sections "messages" .empty (Wording.ofDocument? d) = some f.wording ∧
        Dialect.section? sections "sanitizer" {} (Cleaning.Policy.ofDocument? d) =
          some f.policy ∧
        Dialect.section? sections "strict_rules" false (Dialect.leaf? d.bool?) =
          some f.strict := by
  unfold ofDocument?
  simp only [Option.bind_eq_bind, Option.bind_eq_some_iff, Option.pure_def, Option.some.injEq]
  constructor
  · rintro ⟨sections, hsections, fields, hfields, wording, hwording, policy, hpolicy, strict,
      hstrict, rfl⟩
    exact ⟨sections, hsections, hfields, hwording, hpolicy, hstrict⟩
  · rintro ⟨sections, hsections, hfields, hwording, hpolicy, hstrict⟩
    exact ⟨sections, hsections, f.fields, hfields, f.wording, hwording, f.policy, hpolicy,
      f.strict, hstrict, rfl⟩

/-- The sections that a form is written in. -/
def sections (f : Form) : List (String × Document Json.Leaf) :=
  [("fields", textsDocument f.fields), ("messages", f.wording.toDocument),
    ("sanitizer", ofSections f.policy.sections), ("strict_rules", .leaf (.bool f.strict))]

theorem toDocument_eq (f : Form) : f.toDocument = ofSections f.sections := rfl

/-- **What is read from the document of a form** is the form, up to its wording. -/
theorem ofDocument?_toDocument (f : Form) :
    ofDocument? .json f.toDocument = some { f with wording := f.wording.reload } := by
  have hnames : (f.sections.map (·.1)).Nodup := by
    show formSections.Nodup
    decide
  rw [toDocument_eq]
  exact ofDocument?_eq_some_iff.2
    ⟨f.sections, Dialect.sections?_ofSections hnames formSections,
      texts?_textsDocument f.fields, f.wording.ofDocument?_toDocument,
      f.policy.ofDocument?_ofSections, rfl⟩

theorem numberless_toDocument (f : Form) : Json.Numberless f.toDocument := by
  rw [toDocument_eq]
  refine numberless_ofSections fun s hs => ?_
  simp only [sections, List.mem_cons, List.not_mem_nil, or_false] at hs
  rcases hs with rfl | rfl | rfl | rfl
  · exact numberless_textsDocument f.fields
  · exact f.wording.numberless_toDocument
  · exact f.policy.numberless_ofSections
  · exact Json.numberless_bool f.strict

/-! ### Loaded forms -/

/-- The wording of a form that has been read from a document survives. -/
theorem reload_wording_of_ofDocument? {α : Type} {d : Dialect α} {document : Document α}
    {f : Form} (h : ofDocument? d document = some f) : f.wording.reload = f.wording := by
  obtain ⟨sections, -, -, hwording, -⟩ := ofDocument?_eq_some_iff.1 h
  -- the wording was read from a map, or there is none
  unfold Dialect.section? at hwording
  split at hwording
  · obtain ⟨entries, -, hentries⟩ := Option.map_eq_some_iff.1 hwording
    rw [← hentries]
    exact Wording.reload_ofEntries entries
  · rw [← Option.some.inj hwording]
    exact Wording.reload_ofEntries ∅

/-- A form that has been read was read from some text, in either notation. -/
theorem exists_text_of_read {source : Source} {f : Form} (h : source.read = .ok f) :
    ∃ text, ofJson? text = some f ∨ ofYaml? text = some f := by
  have hform : ∀ {form : Option Form} {e : LoadError},
      Option.elim form (.error e) Except.ok = .ok f → form = some f := by
    intro form e hform
    cases form with
    | none => cases hform
    | some form => exact congrArg some (Except.ok.inj hform)
  cases source with
  | json text => exact ⟨text, Or.inl (hform h)⟩
  | yaml text => exact ⟨text, Or.inr (hform h)⟩
  | file path text =>
    cases text with
    | none => cases h
    | some text => exact ⟨text, Or.inr (hform h)⟩

theorem reload_wording_of_read {source : Source} {f : Form} (h : source.read = .ok f) :
    f.wording.reload = f.wording := by
  obtain ⟨text, hjson | hyaml⟩ := exists_text_of_read h
  · obtain ⟨document, -, hdocument⟩ := Option.bind_eq_some_iff.1 hjson
    exact reload_wording_of_ofDocument? hdocument
  · obtain ⟨document, -, hdocument⟩ := Option.bind_eq_some_iff.1 hyaml
    exact reload_wording_of_ofDocument? hdocument

/-- A form that passes the check and whose wording survives is loaded from every JSON text of
its document. -/
theorem load_of_read? [PhoneDirectory] {f : Form} (hcheck : f.check = .ok ())
    (hwording : f.wording.reload = f.wording) {text : String}
    (hread : Json.read? text = some f.toDocument) : load (.json text) = .ok f := by
  refine (load_eq_ok_iff _ f).2 ⟨?_, hcheck⟩
  have hform : ofJson? text = some f := by
    rw [ofJson?, hread, Option.bind_some, ofDocument?_toDocument, hwording]
  exact read_of_ofJson? hform

/-- **Loading, saving and loading again.**  A form that has been loaded, from JSON, YAML or a
file, can be loaded from the text that it is saved as, and from every other JSON text of its
document; it passes the check again and is the same form. -/
theorem load_save [PhoneDirectory] {source : Source} {f : Form} (h : load source = .ok f) :
    load (.json f.save) = .ok f ∧
      ∀ text, Json.read? text = some f.toDocument → load (.json text) = .ok f := by
  obtain ⟨hread, hcheck⟩ := (load_eq_ok_iff source f).1 h
  have hload : ∀ text, Json.read? text = some f.toDocument → load (.json text) = .ok f :=
    fun _ => load_of_read? hcheck (reload_wording_of_read hread)
  exact ⟨hload _ (Json.read?_write f.numberless_toDocument), hload⟩

/-- A form that words a rule on all fields and a rule on one field. -/
def ticket : Form where
  fields := Dict.ofList [("age", "int|min:18"), ("name", "string|required")]
  wording :=
    ⟨Dict.ofList [("min", "too young")], Dict.ofList [("name", Dict.ofList [("required", "who?")])]⟩
  policy := ⟨.url, true⟩

/-- The form in YAML, without the sections and keys that have their defaults. -/
def ticketText : String :=
  "fields:\n  age: int|min:18\n  name: string|required\n"
    ++ "messages:\n  min: too young\n  name:\n    required: who?\n"
    ++ "sanitizer:\n  default_tag: ' url '\n"

open TwoCountries in
/-- The form is loaded from a YAML file, and again from the JSON text that it is saved as. -/
theorem load_save_of_ticket :
    load (.file "ticket.yaml" (some ticketText)) = .ok ticket ∧
      load (.json ticket.save) = .ok ticket := by
  have hread : ofYaml? ticketText = some ticket := by decide +kernel
  have hcheck : ticket.check = .ok () := (check_eq_ok_iff _).2 (by decide +kernel)
  have hload : load (.file "ticket.yaml" (some ticketText)) = .ok ticket :=
    (load_eq_ok_iff _ _).2 ⟨read_of_ofYaml? hread _, hcheck⟩
  exact ⟨hload, (load_save hload).1⟩

end Form

end Intake
