import Intake.Document
import Intake.Yaml.Leaf
import Intake.Yaml.Token

/-!
# Putting YAML tokens together

`assemble?` reads the tokens of a text from left to right and builds the document in it.
What is open is kept on a stack of frames, so every token is looked at once.

* A node may be left out before a token that goes on with something else
  (`Progress.mayOmit`).  Then it is an empty plain scalar, and the token is read behind it
  (`Progress.behind?`).
* A list by dashes may stand at the column of its key.  Nothing marks its end, so it ends
  before the first token that is no dash.
* A name stands for the node that got it last.  A node that contains its own name is
  unreadable there.
-/

namespace Intake.Yaml

abbrev Node := Document Leaf

def keyOf : Node → Leaf
  | .leaf a => a
  | _ => .unreadable

/-- What is said about a node in front of it. -/
structure Properties where
  /-- The place of its name among all names, if it has one. -/
  anchor : Option Nat
  tag : Option String

namespace Properties

def none : Properties := ⟨.none, .none⟩

def isNone (p : Properties) : Bool :=
  p.anchor.isNone && p.tag.isNone

end Properties

inductive ListForm where
  | block
  /-- By dashes at the column of its key. -/
  | flush
  | flow

inductive MapForm where
  | block
  | flow
  /-- In brackets, while a key without a value is read. -/
  | bare

/-- A collection that is open, with what has been read of it, last things first. -/
inductive Frame where
  /-- A list, the place of its name, and its items. -/
  | list (form : ListForm) (anchor : Option Nat) (items : List Node)
  /-- A mapping, the place of its name, its finished members, and the key of the member
  being read. -/
  | map (form : MapForm) (anchor : Option Nat) (members : List (Leaf × Node))
    (key : Option Leaf)
  /-- A single member among the items of a list in brackets, and its key. -/
  | pair (key : Option Leaf)

/-- What is expected in the innermost collection. -/
inductive Expect where
  /-- The directives and the marker in front of the document, or the document. -/
  | prolog
  /-- The document behind its marker. -/
  | root
  /-- An item or member behind a bracket or comma, or the closing bracket. -/
  | entry
  | node
  /-- The mark in front of an item or member, or the end of the collection. -/
  | mark
  | colon
  | done (document : Node)

/-- Puts a complete node into the innermost collection: what is expected then, and what is
open. -/
def place (node : Node) : List Frame → Expect × List Frame
  | [] => (.done node, [])
  | .list form anchor items :: outer => (.mark, .list form anchor (node :: items) :: outer)
  | .map .bare anchor members none :: outer =>
    (.mark, .map .flow anchor ((keyOf node, .leaf (.missing none)) :: members) none :: outer)
  | .map form anchor members none :: outer =>
    (.colon, .map form anchor members (some (keyOf node)) :: outer)
  | .map form anchor members (some key) :: outer =>
    (.mark, .map form anchor ((key, node) :: members) none :: outer)
  | .pair none :: outer => (.colon, .pair (some (keyOf node)) :: outer)
  | .pair (some key) :: outer => place (.object [(key, node)]) outer

/-- How far a text has been read. -/
structure Progress where
  expect : Expect
  stack : List Frame
  /-- What has been said about the next node. -/
  properties : Properties
  /-- The names of nodes, the last first; a node that is being read has no value yet. -/
  anchors : List (String × Option Node)
  /-- The meanings given to tag handles. -/
  handles : List (String × String)
  versioned : Bool

namespace Progress

def start : Progress := ⟨.prolog, [], .none, [], [], false⟩

/-! ### Complete nodes -/

/-- Puts a complete node into the innermost collection and gives it the name with the given
place. -/
def take (p : Progress) (anchor : Option Nat) (node : Node) : Progress :=
  let (expect, stack) := place node p.stack
  let anchors := match anchor with
    | some number =>
      p.anchors.modify (p.anchors.length - 1 - number) fun e => (e.1, some node)
    | none => p.anchors
  { p with expect, stack, anchors, properties := .none }

def takeScalar (p : Progress) (text : String) (plain : Bool) : Progress :=
  p.take p.properties.anchor (.leaf (.scalar text plain p.properties.tag))

/-- Takes a node that has been left out. -/
def takeMissing (p : Progress) : Progress :=
  p.takeScalar "" true

def openFrame (p : Progress) (expect : Expect) (frame : Option Nat → Frame) : Progress :=
  { p with expect, properties := .none, stack := frame p.properties.anchor :: p.stack }

def close (p : Progress) : Progress :=
  match p.stack with
  | .list _ anchor items :: outer => { p with stack := outer }.take anchor (.list items.reverse)
  | .map _ anchor members _ :: outer =>
    { p with stack := outer }.take anchor (.object members.reverse)
  | _ => p

def await (p : Progress) : Progress :=
  { p with expect := .node }

/-! ### Tokens behind a node -/

/-- Reads a token behind an item or member of a collection whose end is marked. -/
def behindEntry? (p : Progress) (t : Token) : Option Progress :=
  match p.stack, t with
  | .list .block _ _ :: _, .item => some p.await
  | .list .block _ _ :: _, .blockEnd => some p.close
  | .list .flow _ _ :: _, .comma => some { p with expect := .entry }
  | .list .flow _ _ :: _, .closeList => some p.close
  | .map .block _ _ _ :: _, .key => some p.await
  | .map .block _ _ _ :: _, .blockEnd => some p.close
  | .map .flow _ _ _ :: _, .comma => some { p with expect := .entry }
  | .map .flow _ _ _ :: _, .closeMap => some p.close
  | _, _ => none

/-- Reads a token behind a key.  Without a colon the value is left out. -/
def behindKey? (p : Progress) (t : Token) : Option Progress :=
  if t = .value then some p.await else p.takeMissing.behindEntry? t

/-- Reads a token behind a complete node. -/
def behind? (p : Progress) (t : Token) : Option Progress :=
  match p.expect, p.stack with
  | .mark, .list .flush _ _ :: _ =>
    if t = .item then some p.await
    else
      let q := p.close
      match q.expect with
      | .colon => q.behindKey? t
      | _ => q.behindEntry? t
  | .mark, _ => p.behindEntry? t
  | .colon, _ => p.behindKey? t
  | .done _, _ => if t = .documentEnd then some p else none
  | _, _ => none

/-! ### Tokens of a node -/

/-- The node with a name.  Inside itself it is unreadable. -/
def named? (p : Progress) (name : String) : Option Node :=
  (p.anchors.lookup name).map fun node => node.getD (.leaf .unreadable)

def meaning? (p : Progress) (tag : WrittenTag) : Option String :=
  let known := p.handles ++ [("", ""), ("!", "!"), ("!!", "tag:yaml.org,2002:")]
  (known.lookup tag.handle).map (· ++ tag.suffix)

/-- Reads a token that belongs to a node: its properties, a name in its place, a scalar, or
the begin of a collection. -/
def begin? (p : Progress) (t : Token) : Option Progress :=
  match t with
  | .reference name => if p.properties.isNone then (p.named? name).map (p.take none) else none
  | .anchor name =>
    if p.properties.anchor.isSome then none
    else some
      { p.await with
        properties := { p.properties with anchor := some p.anchors.length }
        anchors := (name, none) :: p.anchors }
  | .tag tag =>
    if p.properties.tag.isSome then none
    else (p.meaning? tag).map fun meaning =>
      { p.await with properties := { p.properties with tag := some meaning } }
  | .scalar text plain => some (p.takeScalar text plain)
  | .openList => some (p.openFrame .entry fun anchor => .list .flow anchor [])
  | .openMap => some (p.openFrame .entry fun anchor => .map .flow anchor [] none)
  | .blockList => some (p.openFrame .mark fun anchor => .list .block anchor [])
  | .blockMap => some (p.openFrame .mark fun anchor => .map .block anchor [] none)
  | .item =>
    match p.stack with
    | .map .block _ _ _ :: _ => some (p.openFrame .node fun anchor => .list .flush anchor [])
    | _ => none
  | _ => none

/-- Whether a node without properties may be left out before a token. -/
def mayOmit (p : Progress) (t : Token) : Bool :=
  match p.stack with
  | [] => false
  | .list .block _ _ :: _ => [.item, .blockEnd].contains t
  | .list .flush _ _ :: _ => [.item, .key, .value, .blockEnd].contains t
  | .list .flow _ _ :: _ => false
  | .map .block _ _ _ :: _ => [.key, .value, .blockEnd].contains t
  | .map .flow _ _ none :: _ => [.value, .comma, .closeMap].contains t
  | .map .flow _ _ (some _) :: _ => [.comma, .closeMap].contains t
  | .map .bare _ _ _ :: _ => false
  | .pair none :: _ => [.value, .comma, .closeList].contains t
  | .pair (some _) :: _ => [.comma, .closeList].contains t

/-- Whether the token before which a node has been left out is passed over.  This is so
for the key of a single member in a list: behind a question mark that stands alone, the next
colon, comma or bracket is lost. -/
def passesOver (p : Progress) : Bool :=
  match p.stack with
  | .pair none :: _ => p.properties.isNone
  | _ => false

/-- Reads a token where a node is expected. -/
def node? (p : Progress) (t : Token) : Option Progress :=
  match p.begin? t with
  | some next => some next
  | none =>
    if p.properties.isNone && !p.mayOmit t then none
    else if p.passesOver then some p.takeMissing
    else p.takeMissing.behind? t

/-- Reads a token behind a bracket or a comma. -/
def entry? (p : Progress) (t : Token) : Option Progress :=
  match p.stack, t with
  | .list .flow _ _ :: _, .closeList => some p.close
  | .list .flow _ _ :: _, .key => some { p with expect := .node, stack := .pair none :: p.stack }
  | .list .flow _ _ :: _, _ => p.begin? t
  | .map .flow _ _ _ :: _, .closeMap => some p.close
  | .map .flow _ _ _ :: _, .key => some p.await
  | .map .flow anchor members _ :: outer, _ =>
    { p with stack := .map .bare anchor members none :: outer }.begin? t
  | _, _ => none

/-! ### The whole text -/

def isDirected (p : Progress) : Bool :=
  p.versioned || !p.handles.isEmpty

def prolog? (p : Progress) (t : Token) : Option Progress :=
  match t with
  | .version => if p.versioned then none else some { p with versioned := true }
  | .handle name meaning =>
    if (p.handles.lookup name).isSome then none
    else some { p with handles := (name, meaning) :: p.handles }
  | .documentStart => some { p with expect := .root }
  | _ => if p.isDirected then none else p.begin? t

def step? (p : Progress) (t : Token) : Option Progress :=
  match p.expect with
  | .prolog => p.prolog? t
  | .root => if t = .documentEnd then some p.takeMissing else p.begin? t
  | .entry => p.entry? t
  | .node => p.node? t
  | _ => p.behind? t

/-- The document, if the text is complete.  A document behind a marker or with properties
may be left out. -/
def finish? (p : Progress) : Option Node :=
  match p.expect with
  | .done document => some document
  | .root => some (.leaf (.missing none))
  | .node => if p.stack.isEmpty then some (.leaf (.missing p.properties.tag)) else none
  | _ => none

end Progress

/-- The document that tokens spell, if they spell exactly one. -/
def assemble? (tokens : List Token) : Option Node :=
  (tokens.foldlM Progress.step? Progress.start).bind Progress.finish?

end Intake.Yaml
