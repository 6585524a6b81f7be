import Intake.Text.Trim

/-!
# Telephone numbers

Which numbers exist is known to a directory, kept up by others: numbering plans change from
month to month.

* `PhoneDirectory` is what such a directory answers.  Nothing is assumed of its answers.
* `isPhoneNumber` asks it whether a text is a valid number of a region.
-/

namespace Intake

/-- A directory of telephone numbers. -/
class PhoneDirectory where
  Region : Type
  Number : Type
  /-- The region with a two-letter code in upper case, if there is one. -/
  region? : String → Option Region
  /-- Reads a text as dialled in a region, if it can be read. -/
  read? : Region → String → Option Number
  /-- Whether a number that was read can exist, wherever it is dialled. -/
  isValid : Number → Bool

/-- Whether a text is a valid telephone number as dialled in a region.  The region code is
trimmed and may be in lower case.  An unknown region has no valid number, and a text that
cannot be read is none. -/
def isPhoneNumber [directory : PhoneDirectory] (text region : String) : Bool :=
  match directory.region? ((Text.trim region).map Char.toUpper) with
  | none => false
  | some region => (directory.read? region text).any directory.isValid

end Intake
