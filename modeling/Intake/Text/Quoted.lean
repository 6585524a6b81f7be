import Intake.Text.Hidden

/-!
# Quoted text for diagnostics

Summaries of rules and registries show names and messages in double quotes.  Inside them
quotes and backslashes are escaped, and so is everything that would not show as a character
of its own.
-/

namespace Intake.Text

/-- Writes a character between double quotes. -/
def quoteChar (c : Char) : List Char :=
  if c = '\"' ∨ c = '\\' then ['\\', c]
  else if c = '\x00' then ['\\', '0']
  else if c = '\t' then ['\\', 't']
  else if c = '\n' then ['\\', 'n']
  else if c = '\r' then ['\\', 'r']
  else if isHidden c then "\\u\x7b".toList ++ Nat.toDigits 16 c.toNat ++ ['\x7d']
  else [c]

/-- Writes a text in double quotes. -/
def quoted (s : String) : String :=
  String.ofList ('\"' :: s.toList.flatMap quoteChar ++ ['\"'])

end Intake.Text
