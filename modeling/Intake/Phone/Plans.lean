import Intake.Phone

/-!
# A small directory of telephone numbers

`TwoCountries.directory` knows a part of the numbers of two countries.  It stands in where no
complete directory is at hand, and only where its namespace is open.

* `Plan` describes a country: its calling code, the digits that lead out of it, what may
  stand in front of a national number, and the shapes of national numbers.
* `plans` lists the countries of the directory.
-/

namespace Intake

/-- A family of national numbers: one of some beginnings, then any digits. -/
structure NumberShape where
  leads : List String
  /-- How many digits follow. -/
  rest : Nat

def NumberShape.fits (shape : NumberShape) (cs : List Char) : Bool :=
  cs.all Char.isDigit && shape.leads.any fun lead =>
    lead.toList.isPrefixOf cs && cs.length == lead.length + shape.rest

structure Plan where
  region : String
  code : List Char
  /-- The digits dialled before a foreign calling code. -/
  exit : List Char
  /-- Reduces the digits dialled inside the country to a national number. -/
  national : List Char → List Char
  shapes : List NumberShape

namespace Plan

/-- Removes some digits from the front if they stand there. -/
def dropLead (lead cs : List Char) : List Char :=
  if lead.isPrefixOf cs then cs.drop lead.length else cs

/-- The United States, with four area codes only; the exchange starts with 2 to 9.  Eleven
digits may start with the calling code. -/
def unitedStates : Plan where
  region := "US"
  code := ['1']
  exit := ['0', '1', '1']
  national digits := if digits.length = 11 then dropLead ['1'] digits else digits
  shapes :=
    [{ leads := ["650", "212", "415", "800"].flatMap fun area =>
        ["2", "3", "4", "5", "6", "7", "8", "9"].map (area ++ ·)
       rest := 6 }]

/-- Switzerland: eleven digits may start with the calling code, and one leading zero is a
trunk code. -/
def switzerland : Plan where
  region := "CH"
  code := ['4', '1']
  exit := ['0', '0']
  national digits :=
    dropLead ['0'] (if digits.length = 11 then dropLead ['4', '1'] digits else digits)
  shapes :=
    [{ leads := ["21", "22", "24", "26", "27", "31", "32", "33", "34", "41", "43", "44", "52",
        "55", "56", "61", "62", "71", "81", "91"], rest := 7 },
     { leads := ["68", "69", "72", "73", "75", "76", "77", "78", "79"], rest := 7 },
     { leads := ["740", "742", "744", "748"], rest := 6 },
     { leads := ["800"], rest := 6 },
     { leads := ["900", "901", "906"], rest := 6 },
     { leads := ["840", "842", "844", "848"], rest := 6 },
     { leads := ["878"], rest := 6 },
     { leads := ["51", "58"], rest := 7 },
     { leads := ["860"], rest := 9 }]

/-- Whether digits are a national number of the country. -/
def accepts (plan : Plan) (digits : List Char) : Bool :=
  plan.shapes.any (·.fits digits)

end Plan

/-- The countries of the directory. -/
def plans : List Plan := [Plan.unitedStates, Plan.switzerland]

/-- A national number in the plan that it is read by. -/
structure PlannedNumber where
  plan : Plan
  digits : List Char

def afterLead? (lead cs : List Char) : Option (List Char) :=
  if lead.isPrefixOf cs then some (cs.drop lead.length) else none

namespace PlannedNumber

/-- Reads digits that start with a calling code. -/
def readInternational? (digits : List Char) : Option PlannedNumber :=
  plans.findSome? fun plan => (afterLead? plan.code digits).map fun rest => ⟨plan, rest⟩

/-- The punctuation that may separate the digits of a telephone number. -/
def marks : List Char := [' ', '(', ')', '.', '-', '/']

/-- Reads a text as dialled in a country.  A plus sign or the exit digits of the country make
the number an international one. -/
def read? (plan : Plan) (text : String) : Option PlannedNumber :=
  let dialled := text.toList.filter fun c => !marks.contains c
  match afterLead? ['+'] dialled <|> afterLead? plan.exit dialled with
  | some digits => readInternational? digits
  | none => some ⟨plan, plan.national dialled⟩

def isValid (number : PlannedNumber) : Bool :=
  number.plan.accepts number.digits

end PlannedNumber

namespace TwoCountries

/-- The directory of the countries in `plans`. -/
scoped instance directory : PhoneDirectory where
  Region := Plan
  Number := PlannedNumber
  region? code := plans.find? (·.region == code)
  read? := PlannedNumber.read?
  isValid := PlannedNumber.isValid

end TwoCountries

end Intake
