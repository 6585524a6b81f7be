import Intake.Yaml.Scalar.Fold

/-!
# Plain scalars

A plain scalar has no quotes.  It ends before a comment, before a colon that separates
words, before a marker between documents, and before a line that is indented too little;
inside brackets it ends before brackets and commas instead of by indentation.
-/

namespace Intake.Yaml

/-- Where a plain scalar stands. -/
structure Surroundings where
  inFlow : Bool
  /-- The least column at which the block goes on. -/
  floor : Nat

/-- The characters that cannot begin a plain scalar. -/
def indicators : List Char :=
  "-?:,[]\x7b\x7d#&*!|>'\"%@`".toList

/-- The characters that end a plain scalar inside brackets. -/
def flowIndicators : List Char :=
  ",[]\x7b\x7d".toList

def startsPlain (inFlow : Bool) : List Glyph → Bool
  | [] => false
  | g :: rest =>
    !(isBlank g.char || isBreak g.char || indicators.contains g.char)
      || (g.char == '-' && !isApart rest)
      || (!inFlow && ['?', ':'].contains g.char && !isApart rest)

namespace Surroundings

/-- Whether a plain scalar with a gap behind it ends before what follows. -/
def endsPlain (s : Surroundings) (gap : Gap) : List Glyph → Bool
  | [] => true
  | g :: rest =>
    (!gap.isNone && g.char == '#')
      || (gap.isBroken && !s.inFlow && g.column < s.floor)
      || startsBoundary (g :: rest)
      || (g.char == ':' && isApart rest)
      || (s.inFlow && flowIndicators.contains g.char)

/-- Whether a colon stands before a character that it must not touch inside brackets. -/
def clashes (s : Surroundings) : List Glyph → Bool
  | c :: next :: _ =>
    s.inFlow && c.char == ':' && (next.char == '?' || flowIndicators.contains next.char)
  | _ => false

/-- Reads the rest of a plain scalar: its characters, last first, whether a line ends behind
it, and what follows. -/
def plainFrom? (s : Surroundings) :
    Gap → List Char → List Glyph → Option (List Char × Bool × List Glyph)
  | gap, read, [] => some (read, gap.isBroken, [])
  | gap, read, g :: rest =>
    if isBlank g.char then
      if gap.isBroken && g.char == '\t' && g.column < s.floor then none
      else s.plainFrom? (gap.extend g.char) read rest
    else if isBreak g.char then s.plainFrom? (gap.extend g.char) read rest
    else if s.endsPlain gap (g :: rest) then some (read, gap.isBroken, g :: rest)
    else if s.clashes (g :: rest) then none
    else s.plainFrom? .none (g.char :: gap.join read) rest

/-- Reads a plain scalar: its text, whether a line ends behind it, and what follows. -/
def plain? (s : Surroundings) (gs : List Glyph) : Option (String × Bool × List Glyph) :=
  (s.plainFrom? .none [] gs).map fun (read, broken, rest) =>
    (String.ofList read.reverse, broken, rest)

end Surroundings

end Intake.Yaml
