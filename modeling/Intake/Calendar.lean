import Intake.Text.Trim
import Intake.Number.Whole

/-!
# Calendar dates

Dates of the Gregorian calendar extended to all years, with a year 0 before year 1.

* `Date` holds a real date, which its proof field guarantees.
* `Date.read?` reads `year-month-day`.
* `Date.fullYears` counts the birthdays that have passed between two dates.
-/

namespace Intake

open Number

/-- Every fourth year is a leap year, except full centuries not divisible by 400. -/
def isLeapYear (year : Int) : Bool :=
  year % 4 == 0 && (year % 100 != 0 || year % 400 == 0)

/-- The number of days of a month; months are numbered from 1. -/
def daysInMonth (year : Int) (month : Nat) : Nat :=
  if month = 2 then if isLeapYear year then 29 else 28
  else if month = 4 ∨ month = 6 ∨ month = 9 ∨ month = 11 then 30
  else 31

/-- The first and the last year that dates are kept for. -/
def yearRange : Int × Int := (-262143, 262142)

/-- Whether year, month and day make up a date that is kept. -/
def isDate (year : Int) (month day : Nat) : Bool :=
  yearRange.1 ≤ year && year ≤ yearRange.2 && 1 ≤ month && month ≤ 12
    && 1 ≤ day && day ≤ daysInMonth year month

structure Date where
  /-- The year, which may be 0 or negative. -/
  year : Int
  month : Nat
  /-- The day of the month, from 1. -/
  day : Nat
  valid : isDate year month day = true
deriving DecidableEq

namespace Date

/-- The date of a year, month and day, if they make one up. -/
def of? (year : Int) (month day : Nat) : Option Date :=
  if h : isDate year month day = true then some ⟨year, month, day, h⟩ else none

/-! ### Reading -/

/-- Splits off at least one and at most `limit` digits, behind optional white space. -/
def takeNumber? (limit : Nat) (cs : List Char) : Option (Nat × List Char) :=
  let rest := cs.dropWhile Text.isWhite
  let digits := (rest.takeWhile Char.isDigit).take limit
  if digits.isEmpty then none else some (digitsValue digits, rest.drop digits.length)

/-- Splits off a year: four digits at most, or a sign and any number of digits.  White space
may stand in front, but not between sign and digits. -/
def takeYear? (cs : List Char) : Option (Int × List Char) :=
  let rest := cs.dropWhile Text.isWhite
  match rest with
  | '-' :: after => (takeDigits? after).map fun r => (-(r.1 : Int), r.2)
  | '+' :: after => (takeDigits? after).map fun r => ((r.1 : Int), r.2)
  | _ => (takeNumber? 4 rest).map fun r => ((r.1 : Int), r.2)
where
  /-- Splits off all leading digits, at least one. -/
  takeDigits? (cs : List Char) : Option (Nat × List Char) :=
    let digits := cs.takeWhile Char.isDigit
    if digits.isEmpty then none else some (digitsValue digits, cs.dropWhile Char.isDigit)

def takeHyphen? : List Char → Option (List Char)
  | '-' :: rest => some rest
  | _ => none

/-- Reads a date written `year-month-day`, with white space around it and in front of each
number, and nothing else. -/
def read? (s : String) : Option Date := do
  let (year, rest) ← takeYear? (Text.strip Text.isWhite s.toList)
  let (month, rest) ← takeNumber? 2 (← takeHyphen? rest)
  let (day, rest) ← takeNumber? 2 (← takeHyphen? rest)
  if rest.isEmpty then of? year month day else none

/-! ### Age -/

/-- Whether the day of the year of one date comes before that of another. -/
def earlierInYear (d e : Date) : Bool :=
  d.month < e.month || (d.month == e.month && d.day < e.day)

/-- The number of anniversaries of `born` up to and including `today`. -/
def fullYears (born today : Date) : Int :=
  today.year - born.year - (if today.earlierInYear born then 1 else 0)

end Date

end Intake
