import Intake.Yaml.Scalar.Fold

/-!
# Block scalars

A block scalar is the indented lines below `|` or `>`.  Behind `|` line breaks are kept;
behind `>` a single break between two lines that do not start with a blank is folded.  The
header may fix the indentation and say what happens to the breaks at the end.
-/

namespace Intake.Yaml

/-- What happens to the line breaks at the end of a block scalar. -/
inductive Chomping where
  | strip
  /-- One is kept. -/
  | clip
  | keep
deriving DecidableEq

def chomping? : Char → Option Chomping
  | '+' => some .keep
  | '-' => some .strip
  | _ => none

def increment? (c : Char) : Option Nat :=
  if '1' ≤ c && c ≤ '9' then some (c.toNat - '0'.toNat) else none

/-- Reads the header of a block scalar up to the blanks behind it, in which chomping and
indentation may come in either order. -/
def blockHeader (gs : List Glyph) : Chomping × Option Nat × List Glyph :=
  match gs with
  | [] => (.clip, none, [])
  | a :: rest =>
    match chomping? a.char, increment? a.char, rest with
    | some chomping, _, b :: below =>
      match increment? b.char with
      | some n => (chomping, some n, below)
      | none => (chomping, none, rest)
    | some chomping, _, [] => (chomping, none, [])
    | none, some n, b :: below =>
      match chomping? b.char with
      | some chomping => (chomping, some n, below)
      | none => (.clip, some n, rest)
    | none, some n, [] => (.clip, some n, [])
    | none, none, _ => (.clip, none, gs)

/-- How the lines of a block scalar are put together. -/
structure BlockStyle where
  folds : Bool
  /-- The least indentation that lines without a fixed one can have. -/
  floor : Nat

/-- The text of a block scalar as far as it has been read, last characters first. -/
structure BlockText where
  read : List Char
  /-- The break that ends the last line. -/
  last : Option Char
  /-- The breaks of the empty lines behind it. -/
  empties : List Char
  indented : Bool

/-- Where the scan of a block scalar stands. -/
inductive BlockScan where
  /-- Before a line, with the largest indentation so far. -/
  | margin (widest : Nat)
  | content

namespace BlockText

def empty : BlockText := ⟨[], none, [], false⟩

/-- Starts a line with a character that is no break. -/
def start (t : BlockText) (folds : Bool) (c : Char) : BlockText :=
  let joined :=
    if folds && t.last == some '\n' && !t.indented && !isBlank c then
      t.empties ++ (if t.empties.isEmpty then ' ' :: t.read else t.read)
    else t.empties ++ t.last.toList ++ t.read
  ⟨c :: joined, none, [], isBlank c⟩

/-- The text with the breaks that are left at its end. -/
def finish (t : BlockText) : Chomping → String
  | .strip => String.ofList t.read.reverse
  | .clip => String.ofList (t.last.toList ++ t.read).reverse
  | .keep => String.ofList (t.empties ++ t.last.toList ++ t.read).reverse

end BlockText

namespace BlockStyle

/-- Reads the rest of a block scalar.  Its indentation is that of its first line unless it
is fixed.  Fails if a tab stands where indentation is expected. -/
def readFrom? (s : BlockStyle) (indent : Option Nat) :
    BlockScan → BlockText → List Glyph → Option (BlockText × List Glyph)
  | _, t, [] => some (t, [])
  | .content, t, g :: rest =>
    if isBreak g.char then
      s.readFrom? indent (.margin 0) { t with last := some g.char } rest
    else s.readFrom? indent .content { t with read := g.char :: t.read } rest
  | .margin widest, t, g :: rest =>
    let before := (indent.map fun n => decide (g.column < n)).getD true
    if before && g.char == ' ' then
      s.readFrom? indent (.margin (max widest (g.column + 1))) t rest
    else if before && g.char == '\t' then none
    else if isBreak g.char then
      s.readFrom? indent (.margin widest) { t with empties := g.char :: t.empties } rest
    else
      let indent := indent.getD (max (max widest g.column) (max s.floor 1))
      if g.column = indent then
        s.readFrom? (some indent) .content (t.start s.folds g.char) rest
      else some (t, g :: rest)

end BlockStyle

/-- Reads a block scalar behind its indicator: its text and what follows.  The column of
the block around it counts for a fixed indentation. -/
def block? (folds : Bool) (around : Option Nat) (gs : List Glyph) :
    Option (String × List Glyph) := do
  let (chomping, increment, rest) := blockHeader gs
  let lines ← skipRestOfLine? rest
  let style : BlockStyle := ⟨folds, around.elim 0 (· + 1)⟩
  let (text, rest) ←
    style.readFrom? (increment.map (· + around.getD 0)) (.margin 0) .empty lines
  return (text.finish chomping, rest)

end Intake.Yaml
