import Cardfile.Proofs.Decimal.Rounding
import Cardfile.Proofs.Storage.Codec

/-!
# The storage form of a record

Which records a slot can take, and what it gives back for one.  A letter must
fit in two bytes and the number, brought to its scale, in 96 bits.  All that is
lost is lost at once: the storage form goes through a slot unchanged.
-/

namespace Cardfile.Storage

/-- What a slot gives back for a record. -/
def storageForm (record : Record) : Record :=
  { record with
    firstName := storedName record.firstName
    lastName := storedName record.lastName
    number := record.number.brought }

/-- Whether a slot can take a record. -/
def Fits (record : Record) : Prop :=
  record.letter.toNat < UInt16.size ∧
    record.number.brought.mantissa.natAbs < 1 <<< 96

theorem stored?_of_fits {record : Record} (fits : Fits record) :
    stored? record = some (storageForm record) := by
  obtain ⟨narrow, bounded⟩ := fits
  rw [stored?, if_neg (Nat.not_le.mpr narrow), Decimal.stored?_eq,
    if_pos bounded]
  rfl

theorem stored?_of_not_fits {record : Record} (unfit : ¬Fits record) :
    stored? record = none := by
  by_cases narrow : record.letter.toNat < UInt16.size
  · have wide : ¬record.number.brought.mantissa.natAbs < 1 <<< 96 := by
      intro bounded
      exact unfit ⟨narrow, bounded⟩
    rw [stored?, if_neg (Nat.not_le.mpr narrow), Decimal.stored?_eq,
      if_neg wide]
    rfl
  · rw [stored?, if_pos (Nat.le_of_not_lt narrow)]

theorem decode_encode? {number : Decimal}
    (bounded : number.brought.mantissa.natAbs < 1 <<< 96) :
    number.encode?.map Decimal.decode = some number.brought := by
  have kept : number.stored? = some number.brought := by
    rw [Decimal.stored?_eq, if_pos bounded]
  rw [Decimal.encode?, kept]
  exact congrArg some (Decimal.Stored.of_stored? kept).decode_toBytes

theorem storageForm_storageForm {record : Record} (fits : Fits record) :
    stored? (storageForm record) = some (storageForm record) :=
  stored?_idem (stored?_of_fits fits)

theorem fits_of_encode {record : Record} {marks : Int16} {slot : List UInt8}
    (encoded : encode record marks = .ok slot) : Fits record := by
  by_contra unfit
  obtain ⟨fault, failed⟩ :=
    encode_of_not_stored? marks (stored?_of_not_fits unfit)
  rw [failed] at encoded
  cases encoded

theorem decode_of_encode {record : Record} {slot : List UInt8}
    (encoded : encode record 0 = .ok slot) :
    slot.length = slotSize ∧ decode slot = .ok (some (storageForm record)) := by
  obtain ⟨written, found, whole, decoded⟩ :=
    decode_encode 0 (stored?_of_fits (fits_of_encode encoded))
  obtain rfl : written = slot := by
    rw [encoded] at found
    cases found
    rfl
  exact ⟨whole, decoded⟩

/-- A record is refused exactly if its letter or its number is too wide.  The
slot of any other holds its storage form, unless it is marked as a tombstone,
and so does the slot of the storage form. -/
theorem encode_keeps_storageForm (record : Record) (marks : Int16) :
    (∀ number, record.number.BroughtTo number ↔
      number = (storageForm record).number) ∧
    if 0xFFFF < record.letter.toNat ∨
        1 <<< 96 ≤ (storageForm record).number.mantissa.natAbs then
      ∃ fault, encode record marks = .error fault
    else
      record.number.encode?.map Decimal.decode =
        some (storageForm record).number ∧
      (∃ slot, encode record marks = .ok slot ∧ slot.length = 278 ∧
        decode slot = .ok (if marks.toUInt16.toNat.testBit 2 then none
          else some (storageForm record))) ∧
      ∀ otherMarks : Int16, ∃ slot,
        encode (storageForm record) otherMarks = .ok slot ∧
        decode slot = .ok (if otherMarks.toUInt16.toNat.testBit 2 then none
          else some (storageForm record)) := by
  refine ⟨?_, ?_⟩
  · intro number
    have brought := record.number.broughtTo_brought
    constructor
    · intro other
      exact other.unique brought
    · rintro rfl
      exact brought
  · by_cases fits : Fits record
    · obtain ⟨narrow, bounded⟩ := id fits
      have fit : ¬(0xFFFF < record.letter.toNat ∨
          1 <<< 96 ≤ (storageForm record).number.mantissa.natAbs) := by
        rintro (wide | wide)
        · exact Nat.not_lt.mpr wide narrow
        · exact Nat.not_lt.mpr wide bounded
      rw [if_neg fit]
      refine ⟨decode_encode? bounded, ?_, ?_⟩
      · exact decode_encode marks (stored?_of_fits fits)
      · intro otherMarks
        obtain ⟨slot, encoded, _, decoded⟩ :=
          decode_encode otherMarks (storageForm_storageForm fits)
        exact ⟨slot, encoded, decoded⟩
    · have unfit : 0xFFFF < record.letter.toNat ∨
          1 <<< 96 ≤ (storageForm record).number.mantissa.natAbs := by
        rcases not_and_or.mp fits with wide | wide
        · exact .inl (Nat.le_of_not_lt wide)
        · exact .inr (Nat.le_of_not_lt wide)
      rw [if_pos unfit]
      exact encode_of_not_stored? marks (stored?_of_not_fits fits)

end Cardfile.Storage
