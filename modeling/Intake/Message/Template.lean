import Intake.Text.Trim
import Intake.Number.Whole

/-!
# Message templates

A template is text with placeholders for arguments: `%s` and `%d` stand for the next
argument, `%2$s` and `%2$d` for the second, and `%%` is a percent sign.  Any other `%` is
text.  `%s` shows an argument as it is, `%d` shows the whole number it begins with, and an
argument that does not exist shows as nothing.

* `Piece` is what a template consists of.  The pieces depend on the template alone, so text
  that comes from an argument is never taken for a placeholder.
* `parse` finds the pieces with a machine over single characters (`Scan`).
* `fill` writes the pieces with their arguments.
-/

namespace Intake.Message

open Number

inductive Style where
  | text
  /-- As the whole number it begins with. -/
  | number
deriving DecidableEq, Repr

/-- The style that a letter behind a percent sign asks for. -/
def Style.ofChar? : Char → Option Style
  | 's' => some text
  | 'd' => some number
  | _ => none

inductive Piece where
  | literal (c : Char)
  | next (style : Style)
  /-- The argument of a number, counted from 1. -/
  | numbered (position : Nat) (style : Style)
deriving DecidableEq, Repr

/-! ### Finding the pieces -/

inductive Scan where
  | plain
  /-- Behind a percent sign. -/
  | percent
  /-- Behind a percent sign and digits. -/
  | digits (read : List Char)
  /-- Behind a percent sign, digits and a dollar sign. -/
  | dollar (read : List Char)
deriving DecidableEq, Repr

namespace Scan

/-- The characters that turn out to be text if no placeholder comes about. -/
def pending : Scan → List Char
  | plain => []
  | percent => ['%']
  | digits read => '%' :: read
  | dollar read => '%' :: read ++ ['$']

/-- Takes the pending characters as text and reads a character after them. -/
def restart (s : Scan) (c : Char) : List Piece × Scan :=
  if c = '%' then (s.pending.map .literal, .percent)
  else ((s.pending ++ [c]).map .literal, .plain)

/-- Reads a character: the pieces it completes, and the next state. -/
def step : Scan → Char → List Piece × Scan
  | plain, c => restart plain c
  | percent, c =>
    if c = '%' then ([.literal '%'], plain)
    else if c.isDigit then ([], digits [c])
    else match Style.ofChar? c with
      | some style => ([.next style], plain)
      | none => restart percent c
  | digits read, c =>
    if c.isDigit then ([], digits (read ++ [c]))
    else if c = '$' then ([], dollar read)
    else restart (digits read) c
  | dollar read, c =>
    match Style.ofChar? c with
    | some style => ([.numbered (digitsValue read) style], plain)
    | none => restart (dollar read) c

/-- The pieces of the rest of a template. -/
def pieces : Scan → List Char → List Piece
  | s, [] => s.pending.map .literal
  | s, c :: rest => (s.step c).1 ++ pieces (s.step c).2 rest

end Scan

def parse (template : String) : List Piece :=
  Scan.pieces .plain template.toList

/-! ### Filling them in -/

/-- Shows an argument; one that does not exist shows as nothing. -/
def Style.show (style : Style) (arg : Option String) : List Char :=
  match style, arg with
  | _, none => []
  | text, some s => s.toList
  | number, some s => decimal (leadingWhole (s.toList.dropWhile Text.isWhite))

/-- The argument of a number, counted from 1. -/
def argument? (args : List String) (position : Nat) : Option String :=
  if position = 0 then none else args[position - 1]?

/-- Writes pieces of which `used` unnumbered placeholders have come before. -/
def fillFrom (args : List String) (used : Nat) : List Piece → List Char
  | [] => []
  | .literal c :: rest => c :: fillFrom args used rest
  | .next style :: rest => style.show args[used]? ++ fillFrom args (used + 1) rest
  | .numbered position style :: rest =>
    style.show (argument? args position) ++ fillFrom args used rest

/-- Fills the arguments into a template. -/
def fill (template : String) (args : List String) : String :=
  String.ofList (fillFrom args 0 (parse template))

end Intake.Message
