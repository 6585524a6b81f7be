import Intake.Number.Whole
import Intake.Yaml.Glyph

/-!
# Tokens of YAML

A YAML text is cut into tokens before its nodes are known.  Blocks, which are only visible
by indentation, get tokens where they begin and end, and a key gets a token in front of it.

* `anchorName?`, `tag?` and `directive?` read what stands behind `&`, `*`, `!` and `%`.
-/

namespace Intake.Yaml

/-- A tag as it is written: a handle and what follows it. -/
structure WrittenTag where
  /-- The handle, from `!` to `!`; empty if the tag is written out. -/
  handle : String
  suffix : String
deriving DecidableEq

inductive Token where
  | version
  /-- A directive that gives a meaning to a tag handle. -/
  | handle (name meaning : String)
  | documentStart
  | documentEnd
  | blockList
  | blockMap
  | blockEnd
  | openList
  | closeList
  | openMap
  | closeMap
  | item
  | comma
  /-- The begin of a key, which need not be visible. -/
  | key
  /-- The colon in front of a value. -/
  | value
  /-- The name of a node that stands elsewhere. -/
  | reference (name : String)
  /-- The name that a node gets. -/
  | anchor (name : String)
  | tag (tag : WrittenTag)
  /-- A scalar, and whether it is plain. -/
  | scalar (text : String) (plain : Bool)
deriving DecidableEq

/-! ### Names and tags -/

/-- Reads the name behind `&` or `*`. -/
def anchorName? (gs : List Glyph) : Option (String × List Glyph) :=
  let (name, rest) := span isNameChar gs
  if !name.isEmpty && (isApart rest || "?:,]\x7d%@`".toList.any (startsWith · rest)) then
    some (name, rest)
  else none

def isTagChar (c : Char) : Bool :=
  isNameChar c || ";/?:@&=+$.!~*'()%".toList.contains c

/-- The bytes that escapes in tags spell, behind the percent signs. -/
def unescapeTag? : List Char → Option (List UInt8)
  | [] => some []
  | '%' :: a :: b :: rest => do
    let high ← Number.hexValue? a
    let low ← Number.hexValue? b
    return (high * 16 + low).toUInt8 :: (← unescapeTag? rest)
  | c :: rest => do
    if c = '%' then none
    return c.toString.toUTF8.toList ++ (← unescapeTag? rest)

def tagSuffix? (p : Char → Bool) (gs : List Glyph) : Option (String × List Glyph) := do
  let (text, rest) := span p gs
  let bytes ← unescapeTag? text.toList
  return (← String.fromUTF8? ⟨bytes.toArray⟩, rest)

/-- Reads a tag behind its exclamation mark. -/
def tag? (inFlow : Bool) (gs : List Glyph) : Option (WrittenTag × List Glyph) := do
  let (tag, rest) ←
    if startsWith '<' gs then
      let (suffix, rest) ← tagSuffix? (fun c => isTagChar c || ",[]".toList.contains c) gs.tail
      if suffix.isEmpty || !startsWith '>' rest then none
      some (WrittenTag.mk "" suffix, rest.tail)
    else
      let (name, rest) := span isNameChar gs
      if startsWith '!' rest then
        let (suffix, rest) ← tagSuffix? isTagChar rest.tail
        if suffix.isEmpty then none
        some (WrittenTag.mk ("!" ++ name ++ "!") suffix, rest)
      else
        let (suffix, rest) ← tagSuffix? isTagChar gs
        some (if suffix.isEmpty then WrittenTag.mk "" "!" else WrittenTag.mk "!" suffix, rest)
  if isApart rest || (inFlow && startsWith ',' rest) then some (tag, rest) else none

/-! ### Directives -/

/-- Takes blanks off, of which there must be one. -/
def skipBlanks? (gs : List Glyph) : Option (List Glyph) :=
  match gs with
  | g :: rest => if isBlank g.char then some (rest.dropWhile (isBlank ·.char)) else none
  | [] => none

/-- Whether a text is one of some numbers, in at most nine digits. -/
def isVersionPart (numbers : List Nat) (digits : String) : Bool :=
  !digits.isEmpty && digits.length ≤ 9 && numbers.contains (Number.digitsValue digits.toList)

/-- Reads a directive behind its percent sign, up to what is left of its line. -/
def directive? (gs : List Glyph) : Option (Token × List Glyph) := do
  let (name, rest) := span isNameChar gs
  let rest ← skipBlanks? rest
  if name = "YAML" then
    let (major, rest) := span Char.isDigit rest
    let (minor, below) := span Char.isDigit rest.tail
    if startsWith '.' rest && isVersionPart [1] major && isVersionPart [1, 2] minor then
      some (.version, below)
    else none
  else if name = "TAG" then
    if !startsWith '!' rest then none
    let (middle, rest) := span isNameChar rest.tail
    let closed := startsWith '!' rest
    if !closed && !middle.isEmpty then none
    let (meaning, rest) ←
      tagSuffix? (fun c => isTagChar c || ",[]".toList.contains c)
        (← skipBlanks? (if closed then rest.tail else rest))
    if meaning.isEmpty || !isApart rest then none
    some (.handle ("!" ++ middle ++ (if closed then "!" else "")) meaning, rest)
  else none

end Intake.Yaml
