/-!
# Bytes of a file

Numbers with their low byte first, and writing at a position of a file.
-/

namespace Cardfile.Storage

/-- The lowest `width` bytes of a number, the low byte first. -/
def littleEndian : Nat → Nat → List UInt8
  | 0, _ => []
  | width + 1, number =>
      UInt8.ofNat (number % 256) :: littleEndian width (number / 256)

/-- The number whose bytes are given with the low byte first. -/
def ofLittleEndian : List UInt8 → Nat
  | [] => 0
  | byte :: rest => byte.toNat + 256 * ofLittleEndian rest

/-- The `width` bytes at a position. -/
def bytesAt (position width : Nat) (bytes : List UInt8) : List UInt8 :=
  (bytes.drop position).take width

/-- Bytes filled up with zeros to a width. -/
def zeroExtended (width : Nat) (bytes : List UInt8) : List UInt8 :=
  bytes ++ List.replicate (width - bytes.length) 0

/-- The bytes of a file after a piece was written at a position.  A file that
ends before the position is filled up with zeros. -/
def overwrite (position : Nat) (piece : List UInt8) (bytes : Array UInt8) :
    Array UInt8 :=
  (bytes ++ Array.replicate (position - bytes.size) 0).take position ++
    piece.toArray ++ bytes.drop (position + piece.length)

/-- Writing keeps what lies before and behind the piece. -/
theorem toList_overwrite (position : Nat) (piece : List UInt8)
    (bytes : Array UInt8) :
    (overwrite position piece bytes).toList =
      (zeroExtended position bytes.toList).take position ++ piece ++
        bytes.toList.drop (position + piece.length) := by
  have behind : (bytes.toList.drop (position + piece.length)).take
      (bytes.size - (position + piece.length)) =
        bytes.toList.drop (position + piece.length) :=
    List.take_of_length_le (by simp)
  simp [overwrite, zeroExtended, behind, List.take_append]

end Cardfile.Storage
