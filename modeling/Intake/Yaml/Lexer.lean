import Intake.Yaml.Token
import Intake.Yaml.Scalar.Plain
import Intake.Yaml.Scalar.Quoted
import Intake.Yaml.Scalar.Block

/-!
# Cutting YAML into tokens

`tokens?` cuts a text into tokens from left to right.  Two things are kept on the way.

* The columns of the open blocks.  A token further left closes blocks, and outside brackets
  an item, a key or a value further right opens one.
* The place of the last token that may turn out to be a key.  Only the colon behind it
  shows that it is one, and then the token in front of it is put in (`Lexer.insert`).  The
  colon must come on the same line, at most `Key.reach` characters further on.

Inside brackets indentation does not count.
-/

namespace Intake.Yaml

/-- The place of a token that may be a key. -/
structure Key where
  /-- How many tokens stand before it. -/
  number : Nat
  glyph : Glyph
  /-- Whether it must be a key, because it stands at the column of a block. -/
  required : Bool

namespace Key

/-- How many characters a colon may stand behind the start of its key. -/
def reach : Nat := 1024

def reaches (k : Key) (colon : Glyph) : Bool :=
  k.glyph.line == colon.line && colon.index ≤ k.glyph.index + reach

end Key

/-- What has been read of a text. -/
structure Lexer where
  rest : List Glyph
  /-- The tokens so far, the last first. -/
  tokens : List Token
  /-- The columns of the open blocks, innermost first. -/
  columns : List Nat
  /-- The place that may be a key, inside the innermost brackets. -/
  key : Option Key
  /-- The places that may be keys around each open bracket, innermost first. -/
  outer : List (Option Key)
  /-- Whether a key may start here. -/
  keyAllowed : Bool

namespace Lexer

def start (gs : List Glyph) : Lexer := ⟨gs, [], [], none, [], true⟩

def inFlow (s : Lexer) : Bool :=
  !s.outer.isEmpty

def emit (s : Lexer) (t : Token) : Lexer :=
  { s with tokens := t :: s.tokens }

/-- Puts tokens in behind a number of tokens. -/
def insert (s : Lexer) (number : Nat) (ts : List Token) : Lexer :=
  let later := s.tokens.length - number
  { s with tokens := s.tokens.take later ++ ts.reverse ++ s.tokens.drop later }

/-! ### Blocks and keys -/

/-- Closes the blocks from a column on. -/
def closeFrom (s : Lexer) (column : Nat) : Lexer :=
  if s.inFlow then s
  else
    { s with
      tokens := (s.columns.takeWhile (column ≤ ·)).map (fun _ => .blockEnd) ++ s.tokens
      columns := s.columns.dropWhile (column ≤ ·) }

def opensAt (s : Lexer) (column : Nat) : Bool :=
  !s.inFlow && (s.columns.head?.map fun c => decide (c < column)).getD true

/-- Opens a block at a column, unless it is open. -/
def openAt (s : Lexer) (column : Nat) (t : Token) : Lexer :=
  if s.opensAt column then { s.emit t with columns := column :: s.columns } else s

/-- Gives up the place that may be a key, if it need not be one. -/
def dropKey? (s : Lexer) : Option Lexer :=
  if (s.key.map (·.required)).getD false then none else some { s with key := none }

/-- Notes a token that starts at a glyph as a possible key, if a key may start there. -/
def noteKey? (s : Lexer) (g : Glyph) : Option Lexer :=
  if s.keyAllowed then
    s.dropKey?.map fun s =>
      { s with
        key := some ⟨s.tokens.length, g, !s.inFlow && s.columns.head? == some g.column⟩ }
  else some s

/-! ### Single tokens -/

/-- Reads a marker between documents or a directive, which close everything. -/
def boundary? (s : Lexer) (read : List Glyph → Option (Token × List Glyph)) : Option Lexer := do
  let s ← (s.closeFrom 0).dropKey?
  let (token, rest) ← read s.rest
  return { s.emit token with rest, keyAllowed := false }

/-- Reads an opening bracket, which may start a key. -/
def openBracket? (s : Lexer) (g : Glyph) (t : Token) (rest : List Glyph) : Option Lexer :=
  (s.noteKey? g).map fun s =>
    { s.emit t with rest, key := none, outer := s.key :: s.outer, keyAllowed := true }

def closeBracket? (s : Lexer) (t : Token) (rest : List Glyph) : Option Lexer :=
  s.dropKey?.map fun s =>
    { s.emit t with rest, key := s.outer.head?.join, outer := s.outer.tail, keyAllowed := false }

def comma? (s : Lexer) (rest : List Glyph) : Option Lexer :=
  s.dropKey?.map fun s => { s.emit .comma with rest, keyAllowed := true }

def item? (s : Lexer) (g : Glyph) (rest : List Glyph) : Option Lexer :=
  if s.inFlow || s.keyAllowed then
    (s.openAt g.column .blockList).dropKey?.map fun s =>
      { s.emit .item with rest, keyAllowed := true }
  else none

/-- Reads the question mark in front of a key. -/
def explicitKey? (s : Lexer) (g : Glyph) (rest : List Glyph) : Option Lexer :=
  if s.inFlow || s.keyAllowed then
    (s.openAt g.column .blockMap).dropKey?.map fun s =>
      { s.emit .key with rest, keyAllowed := !s.inFlow }
  else none

/-- Reads a colon behind a place that turns out to be a key. -/
def valueOf (s : Lexer) (k : Key) (rest : List Glyph) : Lexer :=
  let column := k.glyph.column
  let opened := s.opensAt column
  let s := s.insert k.number (if opened then [.blockMap, .key] else [.key])
  { s.emit .value with
    rest, key := none, keyAllowed := false
    columns := if opened then column :: s.columns else s.columns }

/-- Reads a colon that has no key on its line. -/
def lateValue? (s : Lexer) (g : Glyph) (rest : List Glyph) : Option Lexer :=
  if s.inFlow || s.keyAllowed then
    let s := s.openAt g.column .blockMap
    some { s.emit .value with rest, keyAllowed := !s.inFlow }
  else none

/-- Reads the colon in front of a value. -/
def value? (s : Lexer) (g : Glyph) (rest : List Glyph) : Option Lexer :=
  match s.key with
  | some k =>
    if k.reaches g then some (s.valueOf k rest)
    else if k.required then none
    else lateValue? { s with key := none } g rest
  | none => s.lateValue? g rest

/-- Reads a token that may be a key. -/
def word? (s : Lexer) (g : Glyph) (read : Option (Token × List Glyph)) : Option Lexer := do
  let s ← s.noteKey? g
  let (token, rest) ← read
  return { s.emit token with rest, keyAllowed := false }

def quotedWord? (s : Lexer) (g : Glyph) (rest : List Glyph) : Option Lexer :=
  s.word? g ((quoted? g.char rest).map fun (text, rest) => (.scalar text false, rest))

/-- Reads a plain scalar.  If it ends with its line, a key may follow. -/
def plainWord? (s : Lexer) (g : Glyph) (gs : List Glyph) : Option Lexer := do
  let s ← s.noteKey? g
  let around : Surroundings := ⟨s.inFlow, (s.columns.head?.map (· + 1)).getD 0⟩
  let (text, broken, rest) ← around.plain? gs
  return { s.emit (.scalar text true) with rest, keyAllowed := broken }

def blockWord? (s : Lexer) (folds : Bool) (rest : List Glyph) : Option Lexer := do
  let s ← s.dropKey?
  let (text, rest) ← block? folds s.columns.head? rest
  return { s.emit (.scalar text false) with rest, keyAllowed := true }

/-! ### The whole text -/

/-- Takes off what stands before the next token: blanks, comments, line ends and a
byte-order mark at the begin of a line.  Outside brackets a key may start on a new line,
and no tab may stand where a key may start. -/
def skip (inFlow : Bool) : Bool → Bool → List Glyph → Bool × List Glyph
  | _, allowed, [] => (allowed, [])
  | inComment, allowed, g :: rest =>
    if isBreak g.char then skip inFlow false (allowed || !inFlow) rest
    else if inComment || g.char == '#' then skip inFlow true allowed rest
    else if g.char == ' ' || (g.char == '\t' && (inFlow || !allowed))
        || (g.char == byteOrderMark && g.column == 0) then
      skip inFlow false allowed rest
    else (allowed, g :: rest)

/-- Reads a token that starts with the given glyph. -/
def token? (s : Lexer) (g : Glyph) (rest : List Glyph) : Option Lexer :=
  let apart := isApart rest
  if g.column = 0 && g.char = '%' then
    s.boundary? fun _ => do
      let (token, behind) ← directive? rest
      return (token, ← skipRestOfLine? behind)
  else if startsMarker '-' (g :: rest) then
    s.boundary? fun gs => some (.documentStart, gs.drop 3)
  else if startsMarker '.' (g :: rest) then
    s.boundary? fun gs => some (.documentEnd, gs.drop 3)
  else match g.char with
    | '[' => s.openBracket? g .openList rest
    | '\x7b' => s.openBracket? g .openMap rest
    | ']' => s.closeBracket? .closeList rest
    | '\x7d' => s.closeBracket? .closeMap rest
    | ',' => s.comma? rest
    | '*' => s.word? g ((anchorName? rest).map fun (name, rest) => (.reference name, rest))
    | '&' => s.word? g ((anchorName? rest).map fun (name, rest) => (.anchor name, rest))
    | '!' => s.word? g ((tag? s.inFlow rest).map fun (tag, rest) => (.tag tag, rest))
    | '\'' => s.quotedWord? g rest
    | '\"' => s.quotedWord? g rest
    | c =>
      if c = '-' && apart then s.item? g rest
      else if c = '?' && (s.inFlow || apart) then s.explicitKey? g rest
      else if c = ':' && (s.inFlow || apart) then s.value? g rest
      else if c = '|' && !s.inFlow then s.blockWord? false rest
      else if c = '>' && !s.inFlow then s.blockWord? true rest
      else if startsPlain s.inFlow (g :: rest) then s.plainWord? g (g :: rest)
      else none

/-- Closes what is open at the end of the text. -/
def finish? (s : Lexer) : Option (List Token) :=
  (s.closeFrom 0).dropKey?.map fun s => s.tokens.reverse

/-- Reads the rest of the text.  Every token takes at least one character. -/
def run? (s : Lexer) : Option (List Token) :=
  let (keyAllowed, rest) := skip s.inFlow false s.keyAllowed s.rest
  match rest with
  | [] => finish? { s with rest := [], keyAllowed }
  | g :: behind =>
    match token? ({ s with rest, keyAllowed }.closeFrom (g.column + 1)) g behind with
    | some next => if next.rest.length < s.rest.length then next.run? else none
    | none => none
termination_by s.rest.length

end Lexer

/-- The tokens of a text, if it can be cut into tokens. -/
def tokens? (gs : List Glyph) : Option (List Token) :=
  (Lexer.start gs).run?

end Intake.Yaml
