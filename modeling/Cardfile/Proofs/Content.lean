import Cardfile.Field
import Cardfile.Proofs.Decimal.Value

/-!
# Contents of fields

What a record has in a field is a value.  Setting a field puts a value there
and leaves the other fields as they are, and a record holds a value in a field
if it has the same there.
-/

namespace Cardfile

/-- Whether two values are the same, decimals by the number that they stand
for. -/
def Value.same (left right : Value) : Bool :=
  match left, right with
  | .decimal left, .decimal right => left.value = right.value
  | left, right => left = right

namespace Field

/-- What a record has in a field. -/
def content (field : Field) (record : Record) : Value :=
  match field with
  | .id => .int record.id
  | .firstName => .text record.firstName
  | .lastName => .text record.lastName
  | .dateOfBirth => .date record.dateOfBirth
  | .number => .decimal record.number
  | .points => .short record.points
  | .letter => .letter record.letter

theorem holds_eq_same (field : Field) (value : Value) (record : Record) :
    field.holds value record = (field.content record).same value := by
  rw [Bool.eq_iff_iff]
  cases field <;> cases value <;>
    simp [holds, content, Value.same, Decimal.sameValue_iff_value_eq]

theorem content_set_of_ne {field other : Field} (different : other ≠ field)
    (value : Value) (record : Record) :
    other.content (field.set value record) = other.content record := by
  cases field <;> cases value <;> cases other <;>
    first
    | rfl
    | exact absurd rfl different

/-- A value is set as it is, unless its kind is not that of the field. -/
theorem content_set_or (field : Field) (value : Value) :
    (∀ record, field.content (field.set value record) = value) ∨
      ∀ record, field.set value record = record := by
  cases field <;> cases value <;>
    first
    | exact .inl fun _ => rfl
    | exact .inr fun _ => rfl

theorem content_set_of_read {field : Field} {text : String} {value : Value}
    (reads : field.read text = .ok value) (record : Record) :
    field.content (field.set value record) = value := by
  cases field with
  | id =>
      simp only [read] at reads
      cases number : Value.readInt text <;> rw [number] at reads <;>
        cases reads
      rfl
  | firstName =>
      cases reads
      rfl
  | lastName =>
      cases reads
      rfl
  | dateOfBirth =>
      simp only [read] at reads
      split at reads <;> cases reads
      rfl
  | number =>
      simp only [read] at reads
      split at reads <;> cases reads
      rfl
  | points =>
      simp only [read] at reads
      cases number : Value.readShort text <;> rw [number] at reads <;>
        cases reads
      rfl
  | letter =>
      simp only [read] at reads
      split at reads <;> cases reads
      rfl

end Field

theorem Record.eq_of_content {left right : Record}
    (same : ∀ field : Field, field.content left = field.content right) :
    left = right := by
  have id := Value.int.inj (same .id)
  have firstName := Value.text.inj (same .firstName)
  have lastName := Value.text.inj (same .lastName)
  have dateOfBirth := Value.date.inj (same .dateOfBirth)
  have number := Value.decimal.inj (same .number)
  have points := Value.short.inj (same .points)
  have letter := Value.letter.inj (same .letter)
  cases left
  cases right
  simp_all

end Cardfile
