import Intake.Number.Whole
import Intake.Yaml.Scalar.Fold

/-!
# Quoted scalars

Between single quotes a doubled quote stands for one, and nothing else is special.  Between
double quotes a backslash starts an escape; before a line break it joins the lines without
a space.
-/

namespace Intake.Yaml

/-- The characters that escapes of one character stand for. -/
def escapes : List (Char × Char) :=
  [('0', '\x00'), ('a', '\x07'), ('b', '\x08'), ('t', '\t'), ('\t', '\t'), ('n', '\n'),
    ('v', '\x0B'), ('f', '\x0C'), ('r', '\r'), ('e', '\x1B'), (' ', ' '), ('\"', '\"'),
    ('/', '/'), ('\\', '\\'), ('N', '\u0085'), ('_', '\u00A0'), ('L', '\u2028'),
    ('P', '\u2029')]

/-- How many hexadecimal digits follow an escape with a code point. -/
def codeLengths : List (Char × Nat) :=
  [('x', 2), ('u', 4), ('U', 8)]

def char? (code : Nat) : Option Char :=
  if code.isValidChar then some (Char.ofNat code) else none

/-- Where the scan of a quoted scalar stands. -/
inductive QuotedScan where
  /-- Inside the text, behind a gap. -/
  | text (gap : Gap)
  /-- Behind a single quote that may be doubled. -/
  | closing
  /-- Behind a backslash. -/
  | escape
  /-- Inside a code point: how many digits are left after the next, and its value so far. -/
  | code (left : Nat) (value : Nat)

/-- Reads the rest of a quoted scalar: its characters, last first, and what follows. -/
def quotedFrom? (quote : Char) :
    QuotedScan → List Char → List Glyph → Option (List Char × List Glyph)
  | .closing, read, [] => some (read, [])
  | _, _, [] => none
  | .closing, read, g :: rest =>
    if g.char = quote then quotedFrom? quote (.text .none) (quote :: read) rest
    else some (read, g :: rest)
  | .escape, read, g :: rest =>
    if isBreak g.char then quotedFrom? quote (.text (.lines none [])) read rest
    else match codeLengths.lookup g.char, escapes.lookup g.char with
      | some length, _ => quotedFrom? quote (.code (length - 1) 0) read rest
      | none, some c => quotedFrom? quote (.text .none) (c :: read) rest
      | none, none => none
  | .code left value, read, g :: rest =>
    match Number.hexValue? g.char, left with
    | none, _ => none
    | some digit, left + 1 => quotedFrom? quote (.code left (value * 16 + digit)) read rest
    | some digit, 0 =>
      match char? (value * 16 + digit) with
      | some c => quotedFrom? quote (.text .none) (c :: read) rest
      | none => none
  | .text gap, read, g :: rest =>
    if isBlank g.char || isBreak g.char then
      quotedFrom? quote (.text (gap.extend g.char)) read rest
    else if startsBoundary (g :: rest) then none
    else if g.char = quote then
      if quote = '\'' then quotedFrom? quote .closing (gap.join read) rest
      else some (gap.join read, rest)
    else if g.char = '\\' && quote ≠ '\'' then quotedFrom? quote .escape (gap.join read) rest
    else quotedFrom? quote (.text .none) (g.char :: gap.join read) rest

/-- Reads a scalar behind its opening quote: its text and what follows. -/
def quoted? (quote : Char) (gs : List Glyph) : Option (String × List Glyph) :=
  (quotedFrom? quote (.text .none) [] gs).map fun (read, rest) =>
    (String.ofList read.reverse, rest)

end Intake.Yaml
