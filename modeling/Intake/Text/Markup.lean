import Intake.Text.Trim

/-!
# Text outside markup tags

`visible` reduces a text with markup to what a reader would see: tags go, and the quotes
that remain are written as character references, so that the result can stand inside an
attribute value.

A tag runs from `<` to the next `>` outside a quoted attribute value.  A `<` before white
space opens no tag, and a tag that never ends hides the rest of the text.  NUL characters
vanish.

The scan is a machine over single characters: `Scan.step` gives the characters written for
one character read and the next state.  A text stopped in any state writes nothing more,
so there is no final step.
-/

namespace Intake.Text.Markup

inductive Scan where
  | outside
  /-- Just behind a `<`, which opens a tag unless white space follows. -/
  | opened
  | inside
  /-- Inside an attribute value that ends at the given quote. -/
  | quoted (quote : Char)
deriving DecidableEq, Repr

/-- How a character outside every tag is written. -/
def written (c : Char) : List Char :=
  if c = '\x00' then []
  else if c = '\'' then "&#39;".toList
  else if c = '\"' then "&#34;".toList
  else [c]

/-- The state behind a character inside a tag. -/
def Scan.within (c : Char) : Scan :=
  if c = '\"' ∨ c = '\'' then .quoted c
  else if c = '>' then .outside
  else .inside

/-- The characters written for one character, and the state behind it. -/
def Scan.step : Scan → Char → List Char × Scan
  | .outside, c => if c = '<' then ([], .opened) else (written c, .outside)
  | .opened, c => if isWhite c then (['<', c], .outside) else ([], .within c)
  | .inside, c => ([], .within c)
  | .quoted quote, c => ([], if c = quote then .inside else .quoted quote)

/-- What is written for the rest of a text from a given state. -/
def visibleFrom : Scan → List Char → List Char
  | _, [] => []
  | s, c :: rest => (s.step c).1 ++ visibleFrom (s.step c).2 rest

/-- The text outside all tags, with its quotes written as character references. -/
def visible (s : String) : String :=
  String.ofList (visibleFrom .outside s.toList)

end Intake.Text.Markup
