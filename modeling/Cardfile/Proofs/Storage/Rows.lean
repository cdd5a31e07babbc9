import Cardfile.Proofs.Storage.Codec
import Cardfile.Storage.RecordFile

/-!
# Rows of slots

The bytes of a record file are a row of slots, each with a record or a
tombstone, and perhaps a part of a slot behind them.  A slot can be exchanged
for another or put behind the rest without touching any other slot, and
reading takes the entries in one after the other.
-/

namespace Cardfile.Storage

/-- The whole slots of the bytes hold the given entries, in this order. -/
inductive Rows : List UInt8 → List (Option Record) → Prop where
  | nil {tail : List UInt8} (short : tail.length < slotSize) : Rows tail []
  | cons {slot bytes : List UInt8} {entry : Option Record}
      {entries : List (Option Record)} (whole : slot.length = slotSize)
      (holds : decode slot = .ok entry) (rest : Rows bytes entries) :
      Rows (slot ++ bytes) (entry :: entries)

namespace Rows

variable {bytes : List UInt8} {entries : List (Option Record)}

theorem count (rows : Rows bytes entries) :
    bytes.length / slotSize = entries.length := by
  induction rows with
  | nil short => exact Nat.div_eq_of_lt short
  | cons whole holds rest ih =>
      rw [List.length_append, whole, Nat.add_div_left _ (by decide), ih]
      rfl

/-- One slot of a row, which can be exchanged for another. -/
theorem focus (rows : Rows bytes entries) {index : Nat}
    {entry : Option Record} (found : entries[index]? = some entry) :
    ∃ before slot behind,
      bytes = before ++ (slot ++ behind) ∧
      before.length = index * slotSize ∧
      slot.length = slotSize ∧ decode slot = .ok entry ∧
      ∀ {other : List UInt8} {holding : Option Record},
        other.length = slotSize → decode other = .ok holding →
        Rows (before ++ (other ++ behind)) (entries.set index holding) := by
  induction rows generalizing index with
  | nil short => simp at found
  | @cons slot bytes _ entries whole holds rest ih =>
      cases index with
      | zero =>
          cases found
          refine ⟨[], slot, bytes, rfl, by simp, whole, holds, ?_⟩
          intro other holding otherWhole otherHolds
          have exchanged : Rows (other ++ bytes) (holding :: entries) :=
            .cons otherWhole otherHolds rest
          exact exchanged
      | succ index =>
          obtain ⟨before, inner, behind, rfl, place, wide, reads, exchange⟩ :=
            ih found
          refine ⟨slot ++ before, inner, behind, by simp, ?_, wide, reads, ?_⟩
          · rw [List.length_append, whole, place, Nat.succ_mul, Nat.add_comm]
          · intro other holding otherWhole otherHolds
            rw [List.append_assoc]
            exact .cons whole holds (exchange otherWhole otherHolds)

/-- The end of the whole slots, where another one can be put. -/
theorem extend (rows : Rows bytes entries) :
    ∃ before tail,
      bytes = before ++ tail ∧
      before.length = entries.length * slotSize ∧
      tail.length < slotSize ∧
      ∀ {slot : List UInt8} {entry : Option Record},
        slot.length = slotSize → decode slot = .ok entry →
        Rows (before ++ slot) (entries ++ [entry]) := by
  induction rows with
  | @nil tail short =>
      refine ⟨[], tail, rfl, by simp, short, ?_⟩
      intro slot entry whole holds
      have single : Rows (slot ++ []) [entry] :=
        .cons whole holds (.nil (by decide))
      simpa using single
  | @cons slot bytes entry entries whole holds rest ih =>
      obtain ⟨before, tail, rfl, place, short, extended⟩ := ih
      refine ⟨slot ++ before, tail, by simp, ?_, short, ?_⟩
      · rw [List.length_append, whole, place, List.length_cons,
          Nat.succ_mul, Nat.add_comm]
      · intro other otherEntry otherWhole otherHolds
        rw [List.append_assoc]
        exact .cons whole holds (extended otherWhole otherHolds)

end Rows

theorem length_buried (marks : List UInt8) :
    (RecordFile.buried marks).length = 2 := length_littleEndian 2 _

theorem decode_buried {slot : List UInt8} (whole : slot.length = slotSize) :
    decode (RecordFile.buried (slot.take 2) ++ slot.drop 2) = .ok none := by
  have long : ¬(RecordFile.buried (slot.take 2) ++ slot.drop 2).length <
      slotSize := by
    simp [length_buried, whole, StorageFault.slotSize]
  have marks : bytesAt 0 2 (RecordFile.buried (slot.take 2) ++ slot.drop 2) =
      RecordFile.buried (slot.take 2) := by
    simp [bytesAt, RecordFile.buried]
  have bounded : ofLittleEndian (slot.take 2) ||| 1 <<< tombstoneBit <
      Nat.pow 256 2 := by
    have small := ofLittleEndian_lt (slot.take 2)
    have two : (slot.take 2).length = 2 := by
      simp [whole, StorageFault.slotSize]
    rw [two] at small
    exact Nat.or_lt_two_pow (n := 16) small (by decide)
  have marked : isTombstone
      (RecordFile.buried (slot.take 2) ++ slot.drop 2) = true := by
    rw [isTombstone, marks, RecordFile.buried,
      ofLittleEndian_littleEndian bounded, Nat.testBit_or,
      Nat.one_shiftLeft, Nat.testBit_two_pow_self, Bool.or_true]
  rw [decode, if_neg long, if_pos marked]

end Cardfile.Storage
