/-!
# Documents

Records, messages and forms are read from nested documents.  `Document` is their shape:
lists and objects over some type of leaves.  The notation a document is written in decides
what its leaves are.  An object keeps its members in the order of the text, with repeated
keys, so that a reader can refuse repetitions or let the last one count.
-/

namespace Intake

/-- A nested document over leaves of type `α`. -/
inductive Document (α : Type) where
  | leaf (value : α)
  | list (items : List (Document α))
  | object (members : List (α × Document α))

namespace Document

variable {α : Type}

mutual

/-- How deeply lists and objects are nested. -/
def depth : Document α → Nat
  | .leaf _ => 0
  | .list items => depthItems items + 1
  | .object members => depthMembers members + 1

/-- The largest depth among the items of a list. -/
def depthItems : List (Document α) → Nat
  | [] => 0
  | d :: rest => max d.depth (depthItems rest)

/-- The largest depth among the members of an object. -/
def depthMembers : List (α × Document α) → Nat
  | [] => 0
  | (_, d) :: rest => max d.depth (depthMembers rest)

end

end Document

end Intake
