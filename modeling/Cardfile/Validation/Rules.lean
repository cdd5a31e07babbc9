import Cardfile.Fault
import Cardfile.Text.Blank

/-!
# Validation rules

A rule set bounds the fields of a record.  A record is held against the rules
in a fixed order, and the first one broken is the reason for its rejection.
-/

namespace Cardfile

/-- A test that every record must pass before a store keeps it. -/
abbrev Validator := Record → Option Rejection

/-- The validator that rejects nothing. -/
def Validator.acceptAll : Validator := fun _ => none

/-- The current day, with the words that messages use for it. -/
structure Today where
  date : Date
  shown : String := date.display

/-- The bounds of a rule set.  Where no latest date of birth is given, it is
the current day. -/
structure Rules where
  firstName : Span Nat
  lastName : Span Nat
  earliestBirth : Date
  latestBirth : Option Date
  number : Span Int
  letters : String
  points : Span Int16
deriving DecidableEq

namespace Rules

/-- The rules that hold unless others are chosen. -/
def standard : Rules where
  firstName := ⟨2, 60⟩
  lastName := ⟨2, 60⟩
  earliestBirth := { year := 1950, month := 1, day := 1 }
  latestBirth := none
  number := ⟨1, 999999999⟩
  letters := "ABCDEFGHIJKLMNOPQRSTUVWXYZ"
  points := ⟨0, 1000⟩

/-- A second set of rules, wider in most of its bounds. -/
def custom : Rules where
  firstName := ⟨1, 30⟩
  lastName := ⟨1, 30⟩
  earliestBirth := { year := 1900, month := 1, day := 1 }
  latestBirth := none
  number := ⟨0, 9999999999⟩
  letters := "ABCDEFGHIJKLMNOPQRSTUVWXYZabcdefghijklmnopqrstuvwxyz"
  points := ⟨-1000, 10000⟩

/-- Whether the length of a name, blanks around it aside, lies in a span. -/
def allowsLength (allowed : Span Nat) (name : String) : Bool :=
  let length := (Text.trimmed name.toList).length
  allowed.least ≤ length && length ≤ allowed.greatest

/-- The latest date of birth and the words for it. -/
def latest (rules : Rules) (today : Today) : Today :=
  match rules.latestBirth with
  | some date => { date := date }
  | none => today

/-- The first rule that a record breaks. -/
def check (rules : Rules) (today : Today) (record : Record) :
    Option Rejection :=
  let latest := rules.latest today
  if !allowsLength rules.firstName record.firstName then
    some (.firstNameLength rules.firstName)
  else if !allowsLength rules.lastName record.lastName then
    some (.lastNameLength rules.lastName)
  else if record.dateOfBirth.before rules.earliestBirth ||
      latest.date.before record.dateOfBirth then
    some (.dateOfBirth rules.earliestBirth latest.shown)
  else if record.number.less (.ofInt rules.number.least) ||
      (Decimal.ofInt rules.number.greatest).less record.number then
    some (.number rules.number)
  else if !rules.letters.toList.contains record.letter then
    some (.letter record.letter rules.letters)
  else if record.points < rules.points.least ||
      rules.points.greatest < record.points then
    some (.points rules.points)
  else none

/-- The validator of a rule set on a given day. -/
def validator (rules : Rules) (today : Today) : Validator :=
  rules.check today

/-- Finds rules by name: among the given sets first, then the two built in. -/
def named (name : String) (sets : List (String × Rules)) :
    Except Fault Rules :=
  match sets.lookup name with
  | some rules => .ok rules
  | none =>
      if name = "default" then .ok standard
      else if name = "custom" then .ok custom
      else .error (.settings (.unknownRules name))

end Rules

end Cardfile
