import Cardfile.Storage.Bytes

/-!
# Laws of bytes

Numbers survive being cut into bytes if these are enough to hold them, and a
piece is found again at the place behind the pieces before it.
-/

namespace Cardfile.Storage

@[simp]
theorem length_littleEndian (width number : Nat) :
    (littleEndian width number).length = width := by
  induction width generalizing number with
  | zero => rfl
  | succ width ih => simp [littleEndian, ih]

theorem ofLittleEndian_littleEndian {width number : Nat}
    (bounded : number < Nat.pow 256 width) :
    ofLittleEndian (littleEndian width number) = number := by
  induction width generalizing number with
  | zero =>
      have zero : number = 0 := Nat.lt_one_iff.mp bounded
      simp [littleEndian, ofLittleEndian, zero]
  | succ width ih =>
      have rest : number / 256 < Nat.pow 256 width :=
        Nat.div_lt_of_lt_mul (by rwa [Nat.mul_comm])
      simp only [littleEndian, ofLittleEndian, ih rest, UInt8.toNat_ofNat']
      omega

theorem ofLittleEndian_lt (bytes : List UInt8) :
    ofLittleEndian bytes < Nat.pow 256 bytes.length := by
  induction bytes with
  | nil => decide
  | cons byte bytes ih =>
      have low := byte.toNat_lt
      have grown : Nat.pow 256 (byte :: bytes).length =
          Nat.pow 256 bytes.length * 256 := rfl
      simp only [ofLittleEndian]
      omega

/-- The byte at an index counts for so many powers of 256. -/
theorem ofLittleEndian_byte (bytes : List UInt8) (index : Nat) :
    ofLittleEndian bytes / Nat.pow 256 index % 256 =
      (bytes.getD index 0).toNat := by
  induction bytes generalizing index with
  | nil => simp [ofLittleEndian]
  | cons byte bytes ih =>
      have low := byte.toNat_lt
      cases index with
      | zero =>
          have one : Nat.pow 256 0 = 1 := rfl
          rw [one, ofLittleEndian, List.getD_cons_zero]
          omega
      | succ index =>
          have grown : Nat.pow 256 (index + 1) = 256 * Nat.pow 256 index :=
            Nat.mul_comm _ _
          have shifted : (byte.toNat + 256 * ofLittleEndian bytes) / 256 =
              ofLittleEndian bytes := by omega
          rw [grown, ← Nat.div_div_eq_div_mul, ofLittleEndian, shifted, ih,
            List.getD_cons_succ]

theorem ofLittleEndian_bytesAt_lt (position width : Nat)
    (bytes : List UInt8) :
    ofLittleEndian (bytesAt position width bytes) < Nat.pow 256 width := by
  apply Nat.lt_of_lt_of_le (ofLittleEndian_lt _)
  exact Nat.pow_le_pow_right (by decide) (List.length_take_le _ _)

theorem getD_bytesAt {index width : Nat} (inside : index < width)
    (position : Nat) (bytes : List UInt8) :
    (bytesAt position width bytes).getD index 0 =
      bytes.getD (position + index) 0 := by
  rw [bytesAt, List.getD_eq_getElem?_getD, List.getElem?_take_of_lt inside,
    List.getElem?_drop, List.getD_eq_getElem?_getD]

theorem bytesAt_flatten {pieces : List (List UInt8)} (index : Nat)
    {piece : List UInt8} {position width : Nat}
    (found : pieces[index]? = some piece)
    (place : (pieces.take index).flatten.length = position)
    (wide : piece.length = width) :
    bytesAt position width pieces.flatten = piece := by
  obtain ⟨inside, rfl⟩ := List.getElem?_eq_some_iff.mp found
  have parted : pieces.flatten =
      (pieces.take index).flatten ++
        (pieces[index] ++ (pieces.drop (index + 1)).flatten) := by
    rw [← List.flatten_cons, ← List.drop_eq_getElem_cons inside,
      ← List.flatten_append, List.take_append_drop]
  subst position
  subst width
  rw [parted]
  simp [bytesAt]

theorem number_flatten {pieces : List (List UInt8)} (index : Nat)
    {position width number : Nat}
    (found : pieces[index]? = some (littleEndian width number))
    (place : (pieces.take index).flatten.length = position)
    (bounded : number < Nat.pow 256 width) :
    ofLittleEndian (bytesAt position width pieces.flatten) = number := by
  rw [bytesAt_flatten index found place (length_littleEndian width number)]
  exact ofLittleEndian_littleEndian bounded

/-- A piece is written over what follows the bytes before its place. -/
theorem toList_overwrite_behind {bytes : Array UInt8}
    {before rest : List UInt8} {position : Nat} (piece : List UInt8)
    (parted : bytes.toList = before ++ rest)
    (place : before.length = position) :
    (overwrite position piece bytes).toList =
      before ++ piece ++ rest.drop piece.length := by
  subst position
  rw [toList_overwrite, parted]
  simp [zeroExtended, List.drop_append]

theorem length_zeroExtended {width : Nat} {bytes : List UInt8}
    (short : bytes.length ≤ width) :
    (zeroExtended width bytes).length = width := by
  simp only [zeroExtended, List.length_append, List.length_replicate]
  omega

end Cardfile.Storage
