import Cardfile.Fault
import Cardfile.Storage.DecimalCode
import Cardfile.Text.Utf8

/-!
# Slots of a record file

A slot holds one record in a fixed number of bytes, each field at its place:
a word of marks, the id, two names of 120 bytes, year, month and day, the
decimal, the points and the letter.  A marked slot is a tombstone and holds no
record.  Names lose what a slot cannot hold: the characters past the 120th,
and those outside ASCII, which become question marks.
-/

namespace Cardfile.Storage

/-- The number of bytes of a name. -/
def nameSize : Nat := 120

/-- The number of bytes of a slot. -/
abbrev slotSize : Nat := StorageFault.slotSize

/-- The bit of the marks that makes a slot a tombstone. -/
def tombstoneBit : Nat := 2

/-- The byte of a character of a name. -/
def nameByte (c : Char) : UInt8 :=
  if c.toNat < 128 then UInt8.ofNat c.toNat else 63

/-- The bytes of a name. -/
def nameBytes (name : String) : List UInt8 :=
  zeroExtended nameSize ((name.toList.take nameSize).map nameByte)

/-- The name that bytes hold, up to the first zero. -/
def nameOfBytes (bytes : List UInt8) : String :=
  Text.Utf8.decode (bytes.takeWhile (· != 0))

/-- The slot of a record with the given marks. -/
def encode (record : Record) (marks : Int16) :
    Except StorageFault (List UInt8) :=
  if UInt16.size ≤ record.letter.toNat then
    .error (.wideLetter record.letter record.id)
  else
    match record.number.encode? with
    | none => .error (.wideNumber record.number)
    | some number =>
        .ok <|
          littleEndian 2 marks.toUInt16.toNat ++
          littleEndian 4 record.id.toUInt32.toNat ++
          nameBytes record.firstName ++
          nameBytes record.lastName ++
          littleEndian 4 (Int32.ofInt record.dateOfBirth.year).toUInt32.toNat ++
          littleEndian 4 record.dateOfBirth.month ++
          littleEndian 4 record.dateOfBirth.day ++
          number ++
          littleEndian 2 record.points.toUInt16.toNat ++
          littleEndian 2 record.letter.toNat

/-- The signed number of 32 bits at a position. -/
def int32At (position : Nat) (bytes : List UInt8) : Int32 :=
  Int32.ofNat (ofLittleEndian (bytesAt position 4 bytes))

/-- Whether a slot is a tombstone. -/
def isTombstone (slot : List UInt8) : Bool :=
  (ofLittleEndian (bytesAt 0 2 slot)).testBit tombstoneBit

/-- The day of a year, a month and a day of 32 bits each, if there is one. -/
def dayOf? (year month day : Int32) : Option Date :=
  if 0 ≤ month.toInt ∧ 0 ≤ day.toInt then
    Date.of? year.toInt month.toInt.toNat day.toInt.toNat
  else none

/-- The record in a slot, or nothing if it is a tombstone. -/
def decode (slot : List UInt8) : Except StorageFault (Option Record) :=
  if slot.length < slotSize then .error (.shortSlot slot.length)
  else if isTombstone slot then .ok none
  else
    let id := int32At 2 slot
    let year := int32At 246 slot
    let month := int32At 250 slot
    let day := int32At 254 slot
    let code := ofLittleEndian (bytesAt 276 2 slot)
    match dayOf? year month day with
    | none => .error (.badDate id year.toInt month.toInt day.toInt)
    | some date =>
        match Text.charOfCode? code with
        | none => .error (.badLetter id code)
        | some letter =>
            .ok <| some
              { id := id
                firstName := nameOfBytes (bytesAt 6 nameSize slot)
                lastName := nameOfBytes (bytesAt 126 nameSize slot)
                dateOfBirth := date
                number := Decimal.decode (bytesAt 258 16 slot)
                letter := letter
                points :=
                  Int16.ofNat (ofLittleEndian (bytesAt 274 2 slot)) }

end Cardfile.Storage
