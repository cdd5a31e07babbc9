import Cardfile.Decimal.Basic
import Cardfile.Storage.Bytes

/-!
# Decimals in sixteen bytes

A decimal is kept as a magnitude of 96 bits in three words and a word of
flags, which holds the scale in its third byte and the sign in its top bit.
Before that a number is brought to a scale from 0 to 28; places past the 28th
are rounded half to even.
-/

namespace Cardfile.Decimal

/-- The most places that a kept decimal has. -/
def mostPlaces : Nat := 28

/-- The decimal in the form in which it is kept, if its magnitude then fits in
96 bits. -/
def stored? (number : Decimal) : Option Decimal :=
  match (number.roundedTo mostPlaces).unfolded? mostPlaces with
  | some brought =>
      if brought.mantissa.natAbs < 1 <<< 96 then some brought else none
  | none => none

/-- The bytes of a decimal that has the form in which it is kept. -/
def toBytes (number : Decimal) : List UInt8 :=
  Storage.littleEndian 12 number.mantissa.natAbs ++
    Storage.littleEndian 4
      ((number.scale.toNat <<< 16) +
        if number.mantissa < 0 then 1 <<< 31 else 0)

/-- The sixteen bytes of a decimal, if it fits. -/
def encode? (number : Decimal) : Option (List UInt8) :=
  number.stored?.map toBytes

/-- The decimal that sixteen bytes hold.  Flags other than scale and sign do
not matter. -/
def decode (bytes : List UInt8) : Decimal :=
  let magnitude := Storage.ofLittleEndian (Storage.bytesAt 0 12 bytes)
  let flags := Storage.ofLittleEndian (Storage.bytesAt 12 4 bytes)
  ⟨if flags.testBit 31 then -(magnitude : Int) else magnitude,
    (((flags >>> 16) % UInt8.size : Nat) : Int)⟩

end Cardfile.Decimal
