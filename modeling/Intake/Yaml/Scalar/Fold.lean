import Intake.Yaml.Glyph

/-!
# Folding

A scalar may run over several lines.  What stands between two of its words is a gap:
blanks on one line are kept, a single line feed becomes a space, and of several line feeds
the first is dropped.  Blanks next to a line break do not count.
-/

namespace Intake.Yaml

/-- What stands between two words of a scalar, last things first. -/
inductive Gap where
  /-- Blanks on one line; without blanks there is no gap. -/
  | blanks (read : List Char)
  /-- Line breaks: the first, unless it has been escaped, and the others. -/
  | lines (first : Option Char) (others : List Char)

namespace Gap

def none : Gap := .blanks []

def isNone : Gap → Bool
  | .blanks [] => true
  | _ => false

/-- Whether a line ends in the gap. -/
def isBroken : Gap → Bool
  | .blanks _ => false
  | .lines _ _ => true

def extend (c : Char) : Gap → Gap
  | .blanks read => if isBreak c then .lines (some c) [] else .blanks (c :: read)
  | .lines first others => .lines first (if isBreak c then c :: others else others)

/-- Puts the text of a gap behind what has been read, last characters first. -/
def join (read : List Char) : Gap → List Char
  | .blanks spaces => spaces ++ read
  | .lines (some '\n') [] => ' ' :: read
  | .lines (some '\n') others => others ++ read
  | .lines first others => others ++ first.toList ++ read

end Gap

end Intake.Yaml
