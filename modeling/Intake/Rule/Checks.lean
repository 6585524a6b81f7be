import Intake.Rule.Registry
import Intake.Text.Alphabet
import Intake.Number.Numeral
import Intake.Email
import Intake.Phone

/-!
# The tests of the standard rules

Each test looks at one field.  A field that is missing or null passes every test but
`required`, `secure` and, depending on the other field, `same`.  So `min` alone asks for a
minimum length only if there is a value.

A value that is present is mostly tested as text, and a list, which has no text, then fails.
A test whose parameter is missing or of the wrong kind fails, too.
-/

namespace Intake.Rule.Checks

/-- Tests the value of a field that is present; a missing field passes. -/
def ifPresent (test : Value → Bool) (s : Subject) : Bool :=
  match s.value? with
  | some v => test v
  | none => true

/-- Tests the text of a value; a list fails. -/
def onText (test : String → Bool) (v : Value) : Bool :=
  match v.text? with
  | some text => test text
  | none => false

/-- The number given as a parameter. -/
def intParam? (params : List Param) (index : Nat) : Option Int64 :=
  params[index]?.bind Param.int?

/-! ### Presence -/

/-- Whether an item of a list is filled in: text that is not blank, or a list with items. -/
def isFilled : Value → Bool
  | .list items => !items.isEmpty
  | .scalar a =>
    match a.text? with
    | some text => Text.trimBlank text != ""
    | none => false

/-- Whether a value is filled in.  A list needs items, all of them filled in; a text must not
be empty; false counts as empty. -/
def isGiven : Value → Bool
  | .list items => !items.isEmpty && items.all isFilled
  | .scalar .null => false
  | .scalar (.text text) => text != ""
  | .scalar (.bool b) => b
  | .scalar _ => true

/-- The field is present and filled in. -/
def required : Check := fun s _ =>
  (s.value?.map isGiven).getD false

/-- The field has the same value as the field named by the parameter.  Two missing fields
agree. -/
def same : Check := fun s params =>
  match params with
  | [] => false
  | other :: _ =>
    match s.value?, s.valueOf? other.toText with
    | some mine, some theirs => mine.same theirs
    | none, none => true
    | _, _ => false

/-! ### Length -/

/-- The number of characters of a text, compared with a parameter. -/
def lengthIs (test : Int → Int → Bool) (limit : Option Int64) (v : Value) : Bool :=
  match v.text?, limit with
  | some text, some n => test text.length n.toInt
  | _, _ => false

/-- The field has at least as many characters as the parameter says. -/
def min : Check := fun s params =>
  ifPresent (lengthIs (fun length n => n ≤ length) (intParam? params 0)) s

/-- The field has at most as many characters as the parameter says. -/
def max : Check := fun s params =>
  ifPresent (lengthIs (fun length n => length ≤ n) (intParam? params 0)) s

/-- The number of characters of the field lies between the two parameters. -/
def between : Check := fun s params =>
  s |> ifPresent fun v =>
    match v.text?, intParam? params 0, intParam? params 1 with
    | some text, some low, some high =>
      low.toInt ≤ text.length && (text.length : Int) ≤ high.toInt
    | _, _, _ => false

/-! ### Kinds of text -/

/-- The field is empty or an e-mail address. -/
def email : Check := fun s _ =>
  ifPresent (onText fun text => text == "" || Email.isAddress text) s

/-- The field consists of letters and digits and is not empty. -/
def alphanumeric : Check := fun s _ =>
  ifPresent (onText fun text => text != "" && text.toList.all Char.isAlphanum) s

/-- Whether a text is a strong password: 8 to 64 characters, among them a lower-case letter,
an upper-case letter, a digit, and a character that is neither letter, digit nor
underscore.  Letters and digits are those of ASCII. -/
def isStrong (text : String) : Bool :=
  let cs := text.toList
  8 ≤ cs.length && cs.length ≤ 64 && cs.any Char.isLower && cs.any Char.isUpper
    && cs.any Char.isDigit && cs.any fun c => !(c.isAlphanum || c == '_')

/-- The field is present and a strong password. -/
def secure : Check := fun s _ =>
  ((s.value?.bind Value.text?).map isStrong).getD false

/-- Whether a value is a finite number or reads as a number. -/
def isNumeric : Value → Bool
  | .scalar (.int _) => true
  | .scalar (.float x) => (Number.FloatParts.ofFloat x).isFinite
  | .scalar (.text text) => Number.isNumeral text.toList
  | _ => false

/-- The field is a number. -/
def number : Check := fun s _ =>
  ifPresent isNumeric s

/-- The field holds a digit or a sign. -/
def phone : Check := fun s _ =>
  ifPresent (onText fun text => Text.Alphabet.integer.keep text != "") s

/-- The field holds a character of links. -/
def url : Check := fun s _ =>
  ifPresent (onText fun text => Text.Alphabet.link.keep text != "") s

/-- The field is a telephone number of the region that the parameter names. -/
def iso [PhoneDirectory] : Check := fun s params =>
  s |> ifPresent fun v =>
    match v.text?, params.head? with
    | some text, some region => isPhoneNumber text region.toText
    | _, _ => false

/-- The field is a date of birth, and the age has reached the parameter. -/
def minAge : Check := fun s params =>
  s |> ifPresent fun v =>
    match v.text?.bind Date.read?, intParam? params 0 with
    | some born, some years => years.toInt ≤ born.fullYears s.today
    | _, _ => false

end Intake.Rule.Checks
