import Cardfile.Fault
import Cardfile.Text.LowerCase

/-!
# Fields

The seven fields of a record.  A field converts text to its kind of value,
shows its content in a record, is set to a value and is compared with one.  A
value of another kind equals no content and sets nothing.
-/

namespace Cardfile

/-- A field of a record. -/
inductive Field where
  | id
  | firstName
  | lastName
  | dateOfBirth
  | number
  | points
  | letter
deriving DecidableEq, Repr

namespace Field

/-- Every field, in the order in which all of them are shown. -/
def all : List Field :=
  [.id, .firstName, .lastName, .dateOfBirth, .number, .points, .letter]

/-- The name of a field. -/
def name : Field → String
  | .id => "id"
  | .firstName => "firstname"
  | .lastName => "lastname"
  | .dateOfBirth => "dateofbirth"
  | .number => "identificationnumber"
  | .points => "points"
  | .letter => "letter"

/-- The place of a field in `all`. -/
def index (field : Field) : Nat :=
  all.idxOf field

/-- The field with a name, whatever the case of its letters and the blanks
around it. -/
def resolve (name : String) : Except Fault Field :=
  let trimmed := Text.trim name
  match all.find? fun field => field.name == Text.lowerCase trimmed with
  | some field => .ok field
  | none => .error (.unknownField trimmed)

/-- The value of the field's kind that a text stands for. -/
def read (field : Field) (text : String) : Except ConversionFault Value :=
  match field with
  | .id => Value.int <$> Value.readInt text
  | .firstName | .lastName => .ok (.text text)
  | .dateOfBirth =>
      match Date.read? text with
      | some day => .ok (.date day)
      | none => .error .notADate
  | .number =>
      match Decimal.read? text with
      | some found => .ok (.decimal found)
      | none => .error .notADecimal
  | .points => Value.short <$> Value.readShort text
  | .letter =>
      match Value.readLetter? text with
      | some found => .ok (.letter found)
      | none => .error .notALetter

/-- Reads a value, with the field and the text in the fault. -/
def convert (field : Field) (text : String) : Except Fault Value :=
  (field.read text).mapError fun reason =>
    .unconvertible field.name text reason

/-- The content of a field in a record, as it is shown to people. -/
def display (field : Field) (record : Record) : String :=
  match field with
  | .id => Text.showInteger record.id.toInt
  | .firstName => record.firstName
  | .lastName => record.lastName
  | .dateOfBirth => record.dateOfBirth.display
  | .number => record.number.display
  | .points => Text.showInteger record.points.toInt
  | .letter => record.letter.toString

/-- The record with a field set to a value. -/
def set (field : Field) (value : Value) (record : Record) : Record :=
  match field, value with
  | .id, .int found => { record with id := found }
  | .firstName, .text found => { record with firstName := found }
  | .lastName, .text found => { record with lastName := found }
  | .dateOfBirth, .date found => { record with dateOfBirth := found }
  | .number, .decimal found => { record with number := found }
  | .points, .short found => { record with points := found }
  | .letter, .letter found => { record with letter := found }
  | _, _ => record

/-- Whether a field of a record holds a value; numbers are compared by value.
-/
def holds (field : Field) (value : Value) (record : Record) : Bool :=
  match field, value with
  | .id, .int found => record.id == found
  | .firstName, .text found => record.firstName == found
  | .lastName, .text found => record.lastName == found
  | .dateOfBirth, .date found => record.dateOfBirth == found
  | .number, .decimal found => record.number.sameValue found
  | .points, .short found => record.points == found
  | .letter, .letter found => record.letter == found
  | _, _ => false

end Field

end Cardfile
