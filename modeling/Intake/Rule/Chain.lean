import Intake.Problem
import Intake.Text.Split
import Intake.Rule.Param

/-!
# Rule chains

A chain such as `required|between:3,20` lists the rules of a field.  Tokens are separated by
`|`, a rule name is separated from its parameters by the first `:`, and parameters by `,`.
White space around tokens, names and parameters does not count, and empty tokens and empty
parameters are skipped.  Only a token without a name is a mistake.

* `Call.read` reads a token, `Chain.read` a whole chain.
* `Call.write` and `Chain.write` write them in the shortest way.
-/

namespace Intake.Rule

/-- The use of a rule in a chain. -/
structure Call where
  name : String
  params : List Param
deriving DecidableEq, Repr

namespace Call

/-- Reads the parameters behind the colon of a token. -/
def readParams (s : String) : List Param :=
  (((Text.pieces ',' s).map Text.trim).filter (· ≠ "")).map Param.read

/-- Splits a trimmed token into its name and its parameters. -/
def split (token : String) : Call :=
  match Text.cut? ':' token.toList with
  | some (name, params) =>
    ⟨Text.trim (String.ofList name), readParams (String.ofList params)⟩
  | none => ⟨token, []⟩

/-- Reads a token of a field's chain. -/
def read (field token : String) : Except Problem Call :=
  let shown := Text.trim token
  let call := split shown
  if call.name = "" then .error (.namelessRule field shown) else .ok call

/-- Writes a rule with its parameters. -/
def write (call : Call) : String :=
  if call.params = [] then call.name
  else call.name ++ ":" ++ String.intercalate "," (call.params.map Param.toText)

/-- The arguments of the message of a rule: the field, then the parameters. -/
def messageArgs (call : Call) (field : String) : List String :=
  field :: call.params.map Param.toText

end Call

/-- The rules of a field, in the order in which they are checked. -/
structure Chain where
  field : String
  calls : List Call
deriving DecidableEq, Repr

namespace Chain

/-- The tokens of a chain that are not empty. -/
def tokens (s : String) : List String :=
  ((Text.pieces '|' s).map Text.trim).filter (· ≠ "")

/-- Reads the chain of a field; the first token without a name is a problem. -/
def read (field s : String) : Except Problem Chain := do
  return ⟨field, ← (tokens s).mapM (Call.read field)⟩

/-- Writes a chain. -/
def write (chain : Chain) : String :=
  String.intercalate "|" (chain.calls.map Call.write)

end Chain

end Intake.Rule
