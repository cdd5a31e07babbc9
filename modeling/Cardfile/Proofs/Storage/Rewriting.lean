import Cardfile.Proofs.Decimal.Value
import Cardfile.Proofs.Storage.StorageForm

/-!
# Writing back what was read

A slot may hold any bytes.  If they are read as a record, this record fits
into a slot again: its letter has come from two bytes and its number from
twelve, and rounding makes no number wider.  The new slot holds another record
only where a name was not ASCII or the number has more than 28 places.
-/

namespace Cardfile

namespace Decimal

theorem natAbs_mantissa_decode (bytes : List UInt8) :
    (decode bytes).mantissa.natAbs =
      Storage.ofLittleEndian (Storage.bytesAt 0 12 bytes) := by
  simp only [decode]
  split
  · rw [Int.natAbs_neg, Int.natAbs_natCast]
  · rw [Int.natAbs_natCast]

theorem scale_decode (bytes : List UInt8) :
    (decode bytes).scale = (bytes.getD 14 0).toNat := by
  have flags := Storage.ofLittleEndian_byte (Storage.bytesAt 12 4 bytes) 2
  rw [Storage.getD_bytesAt (by decide)] at flags
  have place : Nat.pow 256 2 = 2 ^ 16 := by decide
  simp only [decode, Nat.shiftRight_eq_div_pow, ← place, UInt8.size]
  exact congrArg Int.ofNat flags

end Decimal

namespace Storage

/-- The bytes of a name are ASCII up to the first zero. -/
def AsciiName (bytes : List UInt8) : Prop :=
  ∀ byte ∈ bytes.takeWhile (· != 0), byte < 0x80

instance (bytes : List UInt8) : Decidable (AsciiName bytes) :=
  inferInstanceAs (Decidable (∀ byte ∈ bytes.takeWhile (· != 0), byte < 0x80))

theorem plain_nameOfBytes_iff {bytes : List UInt8}
    (short : bytes.length ≤ nameSize) :
    Plain (nameOfBytes bytes) ↔ AsciiName bytes := by
  constructor
  · intro plain
    exact Text.Utf8.ascii_of_decode plain.ascii
  · intro ascii
    have kept := (List.takeWhile_prefix (· != 0) (l := bytes)).length_le
    rw [nameOfBytes, Text.Utf8.decode_ascii ascii]
    constructor
    · rw [String.length_ofList, List.length_map]
      omega
    · intro c member
      rw [String.toList_ofList] at member
      obtain ⟨byte, among, rfl⟩ := List.mem_map.mp member
      rw [Text.Utf8.toNat_ofNat_ascii (ascii byte among)]
      exact UInt8.lt_iff_toNat_lt.mp (ascii byte among)
    · intro member
      rw [String.toList_ofList] at member
      obtain ⟨byte, among, zero⟩ := List.mem_map.mp member
      have code := Text.Utf8.toNat_ofNat_ascii (ascii byte among)
      rw [zero] at code
      have same : byte = 0 := UInt8.toNat_inj.mp code.symm
      simpa [same] using List.mem_takeWhile_imp among

/-- A name is kept as it was read exactly if its bytes are ASCII. -/
theorem storedName_eq_iff_asciiName {name : String} {slot : List UInt8}
    {position : Nat}
    (read : name = nameOfBytes (bytesAt position nameSize slot)) :
    storedName name = name ↔ AsciiName (bytesAt position nameSize slot) := by
  rw [storedName_eq_iff, read]
  exact plain_nameOfBytes_iff (List.length_take_le _ _)

/-- The bytes of a slot are read as a record. -/
structure Holds (slot : List UInt8) (record : Record) : Prop where
  long : slotSize ≤ slot.length
  live : isTombstone slot = false
  id : record.id = int32At 2 slot
  firstName : record.firstName = nameOfBytes (bytesAt 6 nameSize slot)
  lastName : record.lastName = nameOfBytes (bytesAt 126 nameSize slot)
  dateOfBirth : dayOf? (int32At 246 slot) (int32At 250 slot)
    (int32At 254 slot) = some record.dateOfBirth
  number : record.number = Decimal.decode (bytesAt 258 16 slot)
  points : record.points = Int16.ofNat (ofLittleEndian (bytesAt 274 2 slot))
  letter : Text.charOfCode? (ofLittleEndian (bytesAt 276 2 slot)) =
    some record.letter

theorem holds_of_decode {slot : List UInt8} {record : Record}
    (decoded : decode slot = .ok (some record)) : Holds slot record := by
  simp only [decode] at decoded
  split at decoded
  · cases decoded
  next long =>
  split at decoded
  · cases decoded
  next live =>
  split at decoded
  · cases decoded
  next date day =>
  split at decoded
  · cases decoded
  next letter code =>
  cases decoded
  exact ⟨Nat.le_of_not_lt long, Bool.eq_false_iff.mpr live, rfl, rfl, rfl,
    day, rfl, rfl, code⟩

theorem toNat_of_charOfCode? {code : Nat} {c : Char}
    (found : Text.charOfCode? code = some c) : c.toNat = code := by
  obtain ⟨valid, made⟩ := Option.dite_none_right_eq_some.mp found
  cases made
  rfl

namespace Holds

variable {slot : List UInt8} {record : Record}

theorem scale (holds : Holds slot record) :
    record.number.scale = (slot.getD 272 0).toNat := by
  rw [holds.number, Decimal.scale_decode, getD_bytesAt (by decide)]

theorem fits (holds : Holds slot record) : Fits record := by
  constructor
  · have narrow := ofLittleEndian_bytesAt_lt 276 2 slot
    rwa [toNat_of_charOfCode? holds.letter]
  · have whole : 0 ≤ record.number.scale := by
      rw [holds.scale]
      exact Int.natCast_nonneg _
    calc record.number.brought.mantissa.natAbs
        ≤ record.number.mantissa.natAbs :=
          record.number.broughtTo_brought.natAbs_le whole
      _ = ofLittleEndian (bytesAt 0 12 (bytesAt 258 16 slot)) := by
          rw [holds.number, Decimal.natAbs_mantissa_decode]
      _ < Nat.pow 256 12 := ofLittleEndian_bytesAt_lt 0 12 _
      _ = 1 <<< 96 := by decide

theorem number_kept (holds : Holds slot record) :
    if (slot.getD 272 0).toNat ≤ 28 then
      record.number.brought = record.number
    else
      record.number.brought.scale = 28 ∧
        Decimal.NearestMultiple record.number.value ((10 : ℚ) ^ (-28 : ℤ))
          record.number.brought.mantissa := by
  have scale := holds.scale
  split
  · next few =>
      exact Decimal.brought_eq_self (by omega)
        (scale ▸ Int.ofNat_le.mpr few)
  · next many =>
      apply record.number.broughtTo_brought.nearestMultiple
      rw [scale]
      exact Int.ofNat_lt.mpr (Nat.lt_of_not_le many)

end Holds

/-- A record that was read can be written.  It is read again as it was, but
for a name that is not ASCII and a number of more than 28 places, which
becomes the nearest one of 28.  From then on it stays as it is. -/
theorem rewritten_of_decode {slot : List UInt8} {record : Record}
    (decoded : decode slot = .ok (some record)) :
    ∃ written kept, encode record 0 = .ok written ∧ written.length = 278 ∧
      decode written = .ok (some kept) ∧
      kept.id = record.id ∧ kept.dateOfBirth = record.dateOfBirth ∧
      kept.points = record.points ∧ kept.letter = record.letter ∧
      (kept.firstName = record.firstName ↔ AsciiName (bytesAt 6 120 slot)) ∧
      (kept.lastName = record.lastName ↔ AsciiName (bytesAt 126 120 slot)) ∧
      (if (slot.getD 272 0).toNat ≤ 28 then kept.number = record.number
        else kept.number.scale = 28 ∧
          Decimal.NearestMultiple record.number.value ((10 : ℚ) ^ (-28 : ℤ))
            kept.number.mantissa) ∧
      ∃ again, encode kept 0 = .ok again ∧
        decode again = .ok (some kept) := by
  have holds := holds_of_decode decoded
  obtain ⟨written, encoded, length, reread⟩ :=
    decode_encode 0 (stored?_of_fits holds.fits)
  obtain ⟨again, encodedAgain, _, rereadAgain⟩ :=
    decode_encode 0 (storageForm_storageForm holds.fits)
  have first := storedName_eq_iff_asciiName holds.firstName
  have last := storedName_eq_iff_asciiName holds.lastName
  exact ⟨written, storageForm record, encoded, length, reread, rfl, rfl, rfl,
    rfl, first, last, holds.number_kept, again, encodedAgain, rereadAgain⟩

/-- A slot with a first name in UTF-8, bytes behind the zero of the last name,
a flag without a meaning and half of the 28th place below zero. -/
def foreignSlot : List UInt8 :=
  littleEndian 2 0 ++ littleEndian 4 7 ++
    zeroExtended nameSize [90, 111, 0xC3, 0xAB] ++
    zeroExtended nameSize [76, 101, 101, 0, 0xFF] ++
    littleEndian 4 1990 ++ littleEndian 4 5 ++ littleEndian 4 20 ++
    littleEndian 12 5 ++ [1, 0, 29, 0x80] ++
    littleEndian 2 3 ++ littleEndian 2 65

/-- What it is read as. -/
def foreignRecord : Record where
  id := 7
  firstName := "Zoë"
  lastName := "Lee"
  dateOfBirth := { year := 1990, month := 5, day := 20 }
  number := ⟨-5, 29⟩
  letter := 'A'
  points := 3

/-- Of all its fields only the first name and the number change. -/
theorem rewritten_foreignSlot :
    decode foreignSlot = .ok (some foreignRecord) ∧
      ∃ written kept, encode foreignRecord 0 = .ok written ∧
        decode written = .ok (some kept) ∧
        kept.firstName ≠ "Zoë" ∧ kept.lastName = "Lee" ∧
        kept.number.scale = 28 := by
  have decoded : decode foreignSlot = .ok (some foreignRecord) := by
    decide +kernel
  obtain ⟨written, kept, encoded, _, reread, _, _, _, _, first, last, number,
    _⟩ := rewritten_of_decode decoded
  have places : ¬(foreignSlot.getD 272 0).toNat ≤ 28 := by decide +kernel
  rw [if_neg places] at number
  refine ⟨decoded, written, kept, encoded, reread, ?_, ?_, number.1⟩
  · exact first.not.mpr (by decide +kernel)
  · exact last.mpr (by decide +kernel)

end Storage

end Cardfile
