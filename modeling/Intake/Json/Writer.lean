import Intake.Json.Leaf
import Intake.Document

/-!
# Writing JSON

`Json.write` writes a document as JSON without any white space.  In strings, quotes,
backslashes and control characters are escaped.
-/

namespace Intake.Json

/-- The hexadecimal digit of a value below 16. -/
def hexDigit (n : Nat) : Char :=
  Nat.digitChar n

def writeChar (c : Char) : List Char :=
  if c = '\"' then ['\\', '\"']
  else if c = '\\' then ['\\', '\\']
  else if c.toNat < 0x20 then
    ['\\', 'u', '0', '0', hexDigit (c.toNat / 16), hexDigit (c.toNat % 16)]
  else [c]

def writeText (s : String) : List Char :=
  '\"' :: s.toList.flatMap writeChar ++ ['\"']

/-- Writes a leaf.  Half a surrogate pair is written as the first such half. -/
def Leaf.write : Leaf → List Char
  | .null => "null".toList
  | .bool true => "true".toList
  | .bool false => "false".toList
  | .number n => n.write
  | .text s => writeText s
  | .unpaired => "\"\\ud800\"".toList

mutual

def writeDocument : Document Leaf → List Char
  | .leaf a => a.write
  | .list items => '[' :: writeItems items
  | .object members => '\x7b' :: writeMembers members

/-- Writes the items of a list and the bracket behind them. -/
def writeItems : List (Document Leaf) → List Char
  | [] => [']']
  | [d] => writeDocument d ++ [']']
  | d :: e :: rest => writeDocument d ++ ',' :: writeItems (e :: rest)

/-- Writes the members of an object and the bracket behind them. -/
def writeMembers : List (Leaf × Document Leaf) → List Char
  | [] => ['\x7d']
  | [(k, d)] => k.write ++ ':' :: writeDocument d ++ ['\x7d']
  | (k, d) :: m :: rest => k.write ++ ':' :: writeDocument d ++ ',' :: writeMembers (m :: rest)

end

def write (d : Document Leaf) : String :=
  String.ofList (writeDocument d)

end Intake.Json
