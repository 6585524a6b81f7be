import Intake.Document

/-!
# Assembling documents from tokens

Once a text is cut into brackets, commas, colons and leaves, what remains is the same for
every notation with brackets.  `assemble?` reads the tokens from left to right with a stack
of the brackets that are open, so it needs no bound on depth, and every token is looked at
once.
-/

namespace Intake.Document

variable {α : Type}

/-- A piece of the text of a bracketed document. -/
inductive Token (α : Type) where
  | openList
  | closeList
  | openObject
  | closeObject
  /-- The mark between items or members. -/
  | comma
  /-- The mark between a key and its value. -/
  | colon
  /-- A key or a value without parts. -/
  | leaf (value : α)
deriving DecidableEq, Repr

/-- An open bracket with what has been read behind it, last things first. -/
inductive Frame (α : Type) where
  | list (items : List (Document α))
  /-- An object, its finished members, and the key of the member being read. -/
  | object (members : List (α × Document α)) (key : α)

inductive Expect (α : Type) where
  /-- A value; or the end of the list, if it has just been opened. -/
  | value (orClose : Bool)
  /-- A key of an object with some members; or its end, if it has just been opened. -/
  | key (members : List (α × Document α)) (orClose : Bool)
  | colon (members : List (α × Document α)) (key : α)
  /-- Whatever may follow a complete value. -/
  | after (value : Document α)

/-- The open brackets, innermost first, and what is expected. -/
structure Progress (α : Type) where
  /-- The open brackets, innermost first. -/
  stack : List (Frame α)
  expect : Expect α

namespace Progress

def start : Progress α := ⟨[], .value false⟩

def finishObject (stack : List (Frame α)) (members : List (α × Document α)) : Progress α :=
  ⟨stack, .after (.object members.reverse)⟩

/-- Reads a token where a value is expected. -/
def onValue (stack : List (Frame α)) (orClose : Bool) : Token α → Option (Progress α)
  | .leaf a => some ⟨stack, .after (.leaf a)⟩
  | .openList => some ⟨.list [] :: stack, .value true⟩
  | .openObject => some ⟨stack, .key [] true⟩
  | .closeList =>
    match stack with
    | .list items :: outer =>
      if orClose then some ⟨outer, .after (.list items.reverse)⟩ else none
    | _ => none
  | _ => none

/-- Reads a token behind a complete value. -/
def onAfter (value : Document α) : List (Frame α) → Token α → Option (Progress α)
  | .list items :: outer, .comma => some ⟨.list (value :: items) :: outer, .value false⟩
  | .list items :: outer, .closeList =>
    some ⟨outer, .after (.list (value :: items).reverse)⟩
  | .object members key :: outer, .comma =>
    some ⟨outer, .key ((key, value) :: members) false⟩
  | .object members key :: outer, .closeObject =>
    some (finishObject outer ((key, value) :: members))
  | _, _ => none

/-- Reads one token, if only some leaves can be keys. -/
def step (isKey : α → Bool) (p : Progress α) (token : Token α) : Option (Progress α) :=
  match p.expect with
  | .value orClose => onValue p.stack orClose token
  | .key members orClose =>
    match token with
    | .leaf a => if isKey a then some ⟨p.stack, .colon members a⟩ else none
    | .closeObject => if orClose then some (finishObject p.stack members) else none
    | _ => none
  | .colon members key =>
    match token with
    | .colon => some ⟨.object members key :: p.stack, .value false⟩
    | _ => none
  | .after value => onAfter value p.stack token

/-- The document, if all brackets are closed. -/
def finish? (p : Progress α) : Option (Document α) :=
  match p.stack, p.expect with
  | [], .after value => some value
  | _, _ => none

end Progress

/-- The document that a list of tokens spells, if it spells one whose keys are all of the
given kind. -/
def assemble? (isKey : α → Bool) (tokens : List (Token α)) : Option (Document α) :=
  (tokens.foldlM (Progress.step isKey) Progress.start).bind Progress.finish?

end Intake.Document
