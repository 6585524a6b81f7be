/-!
# Splitting at a separator

Rule strings are read by splitting at single characters: a chain at every `|`, a token at
its first `:`, parameters at every `,`, an address at its last `@`.

* `pieces` gives all the texts between separators, one more than there are separators.
* `cut?` and `cutLast?` split once, at the first and at the last separator.
-/

namespace Intake.Text

/-- The texts between the occurrences of a separator, empty ones included. -/
def pieces (sep : Char) (s : String) : List String :=
  (s.toList.splitOn sep).map String.ofList

/-- What stands before and after the first separator, if there is one. -/
def cut? (sep : Char) : List Char → Option (List Char × List Char)
  | [] => none
  | c :: rest =>
    if c = sep then some ([], rest)
    else (cut? sep rest).map fun parts => (c :: parts.1, parts.2)

/-- What stands before and after the last separator, if there is one. -/
def cutLast? (sep : Char) (cs : List Char) : Option (List Char × List Char) :=
  (cut? sep cs.reverse).map fun parts => (parts.2.reverse, parts.1.reverse)

end Intake.Text
