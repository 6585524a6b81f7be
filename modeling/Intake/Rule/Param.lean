import Intake.Text.Trim
import Intake.Number.Whole

/-!
# Rule parameters

A parameter of a rule is a number if it reads as one that fits 64 bits, and text otherwise.
`Param.toText` is what messages show: a number is written anew, so `+07` shows as `7`.
-/

namespace Intake.Rule

/-- A parameter of a rule. -/
inductive Param where
  | int (value : Int64)
  /-- Anything else, without white space around it. -/
  | text (value : String)
deriving DecidableEq, Repr

namespace Param

/-- Reads a parameter; white space around it does not count. -/
def read (s : String) : Param :=
  let shown := Text.trim s
  match Number.readInt64? shown.toList with
  | some n => int n
  | none => text shown

/-- The number, if the parameter is one. -/
def int? : Param → Option Int64
  | int n => some n
  | text _ => none

/-- The parameter as text. -/
def toText : Param → String
  | int n => String.ofList (Number.decimal n.toInt)
  | text s => s

end Param

end Intake.Rule
