import Mathlib.Data.List.Forall2
import Cardfile.Field
import Cardfile.Proofs.Date
import Cardfile.Proofs.Decimal.Text

/-!
# Fields read back

What a field shows of a record is read as the value that the record has in
it, a number as the one it is written for.  A record whose fields are all set
to these values agrees with the first one and is shown alike.
-/

namespace Cardfile

/-- The record with its number as the one it is written for. -/
def Record.asWritten (record : Record) : Record :=
  { record with number := record.number.asWritten }

/-- A record that can be written out: its year has four digits, and the scale
of its number fits 64 bits like that of every number that is read. -/
structure Record.Writable (record : Record) : Prop where
  firstYear : 0 ≤ record.dateOfBirth.year
  lastYear : record.dateOfBirth.year ≤ 9999
  scale : Decimal.isScale record.number.scale = true

theorem Record.agrees_asWritten (record : Record) :
    record.agrees record.asWritten = true := by
  simp [agrees, asWritten, record.number.sameValue_asWritten]

theorem Record.forall₂_agrees_asWritten (records : List Record) :
    List.Forall₂ (fun before after => before.agrees after = true) records
      (records.map asWritten) := by
  rw [List.forall₂_map_right_iff, List.forall₂_same]
  intro record _
  exact record.agrees_asWritten

namespace Value

theorem solid_showInteger (number : Int) :
    ∀ c ∈ (Text.showInteger number).toList, Text.isBlank c = false ∧
      c ≠ '\'' := by
  intro c member
  have digits := Text.digits_toDigits number.natAbs c
  rw [Text.toList_showInteger] at member
  split at member
  · rcases List.mem_cons.mp member with rfl | inDigits
    · decide
    · exact Text.solid_of_isDigit (digits inDigits)
  · exact Text.solid_of_isDigit (digits member)

theorem trimmed_showInteger (number : Int) :
    Text.trimmed (Text.showInteger number).toList =
      (Text.showInteger number).toList :=
  Text.trimmed_of_solid fun c member => (solid_showInteger number c member).1

theorem readInt_showInteger (number : Int32) :
    readInt (Text.showInteger number.toInt) = .ok number := by
  have within : Text.isSigned 32 number.toInt = true := by
    have least : Text.leastSigned 32 = -2147483648 := by decide
    have greatest : Text.greatestSigned 32 = 2147483647 := by decide
    have above := number.le_toInt
    have below := number.toInt_lt
    rw [Text.isSigned_iff, least, greatest]
    omega
  rw [readInt, trimmed_showInteger, Text.readSigned_showInteger within]
  simp

theorem readShort_showInteger (number : Int16) :
    readShort (Text.showInteger number.toInt) = .ok number := by
  have within : Text.isSigned 16 number.toInt = true := by
    have least : Text.leastSigned 16 = -32768 := by decide
    have greatest : Text.greatestSigned 16 = 32767 := by decide
    have above := number.le_toInt
    have below := number.toInt_lt
    rw [Text.isSigned_iff, least, greatest]
    omega
  rw [readShort, trimmed_showInteger, Text.readSigned_showInteger within]
  simp

theorem readLetter?_toString (letter : Char) :
    readLetter? letter.toString = some letter := by
  simp [readLetter?]

end Value

namespace Field

/-- The value that a record has in a field, as it is written. -/
def value (field : Field) (record : Record) : Value :=
  match field with
  | .id => .int record.id
  | .firstName => .text record.firstName
  | .lastName => .text record.lastName
  | .dateOfBirth => .date record.dateOfBirth
  | .number => .decimal record.number.asWritten
  | .points => .short record.points
  | .letter => .letter record.letter

/-- What a field shows is read as the value of the record in it. -/
theorem read_display {record : Record} (writable : record.Writable)
    (field : Field) :
    field.read (field.display record) = .ok (field.value record) := by
  cases field with
  | id =>
      rw [read, display, Value.readInt_showInteger]
      rfl
  | firstName => rfl
  | lastName => rfl
  | dateOfBirth =>
      rw [read, display,
        Date.read?_display writable.firstYear writable.lastYear]
      rfl
  | number =>
      rw [read, display, Decimal.read?_display writable.scale]
      rfl
  | points =>
      rw [read, display, Value.readShort_showInteger]
      rfl
  | letter =>
      rw [read, display, Value.readLetter?_toString]
      rfl

theorem display_asWritten (field : Field) (record : Record) :
    field.display record.asWritten = field.display record := by
  cases field with
  | number => exact record.number.display_asWritten
  | id => rfl
  | firstName => rfl
  | lastName => rfl
  | dateOfBirth => rfl
  | points => rfl
  | letter => rfl

/-- Only the names and the letter of a record can show an apostrophe. -/
theorem apostrophe_not_mem_display {record : Record}
    (writable : record.Writable) (first : '\'' ∉ record.firstName.toList)
    (last : '\'' ∉ record.lastName.toList) (letter : record.letter ≠ '\'')
    (field : Field) : '\'' ∉ (field.display record).toList := by
  cases field with
  | id => exact fun member => (Value.solid_showInteger _ _ member).2 rfl
  | firstName => exact first
  | lastName => exact last
  | dateOfBirth =>
      intro member
      have spells := Date.spells_display writable.firstYear writable.lastYear
      rcases spells.isDigit_or_mark member with digit | hyphen | slash
      · exact absurd digit (by decide)
      · exact absurd hyphen (by decide)
      · exact absurd slash (by decide)
  | number =>
      intro member
      exact ((Decimal.spells_display writable.scale).solid member).2 rfl
  | points => exact fun member => (Value.solid_showInteger _ _ member).2 rfl
  | letter => simpa [display] using Ne.symm letter

end Field

end Cardfile
