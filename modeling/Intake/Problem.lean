/-!
# Configuration problems

A value that breaks a rule is no error: it gets a message.  Errors are mistakes in the
configuration, namely in the rule strings of a form.  `Problem` lists their causes and
`Problem.message` words them.
-/

namespace Intake

/-- A mistake in the rule string of a field. -/
inductive Problem where
  /-- No cleaning tag has this name. -/
  | unknownTag (name : String)
  /-- A token of a field's chain has no rule name. -/
  | namelessRule (field token : String)
  /-- A field's chain names a rule that is not registered. -/
  | unknownRule (field rule : String)
  /-- A field's chain gives a rule fewer parameters than it takes. -/
  | missingParams (field rule : String) (wanted given : Nat)
deriving DecidableEq, Repr

def Problem.message : Problem → String
  | unknownTag name => "Unknown sanitize tag '" ++ name ++ "'"
  | namelessRule field token =>
    "Malformed rule '" ++ token ++ "' for field '" ++ field ++ "': missing rule name"
  | unknownRule field rule =>
    "Unknown validation rule '" ++ rule ++ "' for field '" ++ field ++ "'"
  | missingParams field rule wanted given =>
    "Rule '" ++ rule ++ "' on field '" ++ field ++ "' expects " ++ Nat.repr wanted
      ++ " parameter(s) but got " ++ Nat.repr given

end Intake
