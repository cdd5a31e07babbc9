import Cardfile.Proofs.Decimal.Value
import Cardfile.Proofs.Field

/-!
# Converting what is displayed

What a field shows of a record converts to a value that stands for the content
of the field: setting the field to it changes nothing that can be told, and a
record holds it exactly if its content is the same.
-/

namespace Cardfile

theorem Decimal.value_asWritten (number : Decimal) :
    number.asWritten.value = number.value := by
  rw [eq_comm, ← sameValue_iff_value_eq]
  exact number.sameValue_asWritten

namespace Field

/-- Whether two records have the same content in a field, numbers by value. -/
def SameContent (field : Field) (left right : Record) : Prop :=
  match field with
  | .id => left.id = right.id
  | .firstName => left.firstName = right.firstName
  | .lastName => left.lastName = right.lastName
  | .dateOfBirth => left.dateOfBirth = right.dateOfBirth
  | .number => left.number.value = right.number.value
  | .points => left.points = right.points
  | .letter => left.letter = right.letter

theorem sameContent_iff (field : Field) (left right : Record) :
    field.SameContent left right ↔
      field.holds (field.value right) left = true := by
  cases field with
  | number =>
      simp only [SameContent, holds, value, Decimal.sameValue_iff_value_eq,
        Decimal.value_asWritten]
  | _ => simp [SameContent, holds, value]

end Field

theorem Record.agrees_iff (left right : Record) :
    left.agrees right = true ↔
      ∀ field : Field, field.SameContent left right := by
  simp only [agrees, Bool.and_eq_true, beq_iff_eq,
    Decimal.sameValue_iff_value_eq]
  constructor
  · rintro ⟨⟨⟨⟨⟨⟨id, first⟩, last⟩, date⟩, number⟩, letter⟩, points⟩ field
    cases field <;> assumption
  · intro same
    exact ⟨⟨⟨⟨⟨⟨same .id, same .firstName⟩, same .lastName⟩,
      same .dateOfBirth⟩, same .number⟩, same .letter⟩, same .points⟩

namespace Field

theorem agrees_set_value (field : Field) (record : Record) :
    (field.set (field.value record) record).agrees record = true := by
  rw [Record.agrees_iff]
  intro other
  cases field with
  | number =>
      cases other with
      | number => exact record.number.value_asWritten
      | _ => rfl
  | _ => cases other <;> rfl

/-- What a field shows of a record of a year with four digits is converted.
The field can be set to the value without a change, and a record holds the
value exactly if it has the same content in the field.  All spellings of a
date of birth, with any blanks around them, are converted to the same value.
-/
theorem convert_display {record : Record} (writable : record.Writable) :
    (∀ field, ∃ value,
      convert field (field.display record) = .ok value ∧
      (field.set value record).agrees record = true ∧
      ∀ other, field.holds value other = true ↔
        field.SameContent other record) ∧
    ∀ {front spelling back : List Char},
      (∀ c ∈ front, Text.isBlank c = true) →
      record.dateOfBirth.Spells spelling →
      (∀ c ∈ back, Text.isBlank c = true) →
      convert .dateOfBirth (String.ofList (front ++ (spelling ++ back))) =
        convert .dateOfBirth (dateOfBirth.display record) := by
  constructor
  · intro field
    refine ⟨field.value record, ?_, field.agrees_set_value record, ?_⟩
    · rw [convert, read_display writable field]
      rfl
    · intro other
      exact (field.sameContent_iff other record).symm
  · intro front spelling back before spells behind
    rw [convert, convert, read_display writable dateOfBirth, read,
      Date.read?_surrounded spells before behind]
    rfl

/-- A number is written with an exponent and found under any other scale, and
a date may be spelled the other way round between wide blanks. -/
theorem convert_display_scaled :
    let record : Record :=
      { number := ⟨-150, -20⟩
        dateOfBirth := { year := 1990, month := 5, day := 1 } }
    record.Writable ∧
      (∃ value, convert number "-150e+20" = .ok value ∧
        (number.set value record).agrees record = true ∧
        number.holds value { number := ⟨-15, -21⟩ } = true) ∧
      convert dateOfBirth "\u3000\u00A05/01/1990\u2003" =
        convert dateOfBirth "1990-05-01" := by
  intro record
  have writable : record.Writable := by
    refine ⟨?_, ?_, ?_⟩ <;> decide
  obtain ⟨fields, dates⟩ := convert_display writable
  have shownNumber : number.display record = "-150e+20" := by decide +kernel
  have shownDate : dateOfBirth.display record = "1990-05-01" := by
    decide +kernel
  refine ⟨writable, ?_, ?_⟩
  · obtain ⟨value, converted, kept, found⟩ := fields number
    refine ⟨value, shownNumber ▸ converted, kept, (found _).mpr ?_⟩
    norm_num [SameContent, Decimal.value, record]
  · have month : Date.digits? 1 2 ['5'] = some 5 := by decide
    have day : Date.digits? 1 2 ['0', '1'] = some 1 := by decide
    have year : Date.digits? 4 4 ['1', '9', '9', '0'] = some 1990 := by
      decide
    rw [Date.digits?_eq_some] at month day year
    have spells : record.dateOfBirth.Spells
        (['5'] ++ '/' :: (['0', '1'] ++ '/' :: ['1', '9', '9', '0'])) :=
      .monthFirst month day year
    have same := @dates ['\u3000', '\u00A0'] _ ['\u2003']
      (List.all_eq_true.mp rfl) spells (List.all_eq_true.mp rfl)
    rw [shownDate] at same
    exact same

end Field

end Cardfile
