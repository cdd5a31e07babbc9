import Cardfile.Date.Basic
import Cardfile.Decimal.Text

/-!
# Records

A record describes one person by seven fields.  Two records that differ only
in how their numbers are written describe the same person.
-/

namespace Cardfile

/-- The number under which a store keeps a record. -/
abbrev RecordId := Int32

/-- One person's entry. -/
structure Record where
  id : RecordId := 0
  firstName : String := ""
  lastName : String := ""
  dateOfBirth : Date := Date.epoch
  number : Decimal := Decimal.ofInt 0
  letter : Char := '\x00'
  points : Int16 := 0
deriving DecidableEq

namespace Record

instance : Inhabited Record := ⟨{}⟩

/-- Whether two records agree in every field, their numbers by value. -/
def agrees (left right : Record) : Bool :=
  left.id == right.id && left.firstName == right.firstName &&
    left.lastName == right.lastName &&
    left.dateOfBirth == right.dateOfBirth &&
    left.number.sameValue right.number && left.letter == right.letter &&
    left.points == right.points

/-- A record in one line. -/
def display (record : Record) : String :=
  "#" ++ Text.showInteger record.id.toInt ++ ", " ++ record.firstName ++
    ", " ++ record.lastName ++ ", " ++ record.dateOfBirth.display ++ ", " ++
    record.letter.toString ++ record.number.display ++ ", " ++
    Text.showInteger record.points.toInt

end Record

end Cardfile
