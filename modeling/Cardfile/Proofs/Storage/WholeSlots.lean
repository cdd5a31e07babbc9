import Cardfile.Proofs.Storage.RecordFile

/-!
# Whole slots

The bytes of a record file as a list of whole slots, whatever these hold.  A
slot that is written over another one or behind the last leaves every other
slot as it was, and so does a slot that becomes a tombstone, of which only one
bit changes.
-/

namespace Cardfile.Storage

/-- The whole slots of the bytes, in their order. -/
def wholeSlots (bytes : List UInt8) : List (List UInt8) :=
  (List.range (bytes.length / slotSize)).map fun index =>
    bytesAt (index * slotSize) slotSize bytes

/-- The record in a slot, if it is read as one. -/
def record? (slot : List UInt8) : Option Record :=
  match decode slot with
  | .ok entry => entry
  | .error _ => none

/-- The records among entries, each with the place of its slot. -/
def places (entries : List (Option Record)) (start : Nat) :
    List (Nat × Record) :=
  (entries.zipIdx start).filterMap fun (entry, index) =>
    entry.map (index * slotSize, ·)

/-- The live slots of the bytes: their places and the records in them. -/
def liveSlots (bytes : List UInt8) : List (Nat × Record) :=
  places ((wholeSlots bytes).map record?) 0

section Reading

variable {bytes : List UInt8}

@[simp]
theorem length_wholeSlots (bytes : List UInt8) :
    (wholeSlots bytes).length = bytes.length / slotSize := by
  simp [wholeSlots]

theorem getElem?_wholeSlots {index : Nat}
    (inside : index < bytes.length / slotSize) :
    (wholeSlots bytes)[index]? =
      some (bytesAt (index * slotSize) slotSize bytes) := by
  simp [wholeSlots, inside]

theorem end_le_of_lt {index size : Nat} (inside : index < size / slotSize) :
    index * slotSize + slotSize ≤ size := by
  rw [← Nat.succ_mul]
  exact (Nat.le_div_iff_mul_le (by decide)).mp inside

theorem length_of_mem_wholeSlots {slot : List UInt8}
    (member : slot ∈ wholeSlots bytes) : slot.length = slotSize := by
  obtain ⟨index, inside, rfl⟩ := List.mem_map.mp member
  have last := end_le_of_lt (List.mem_range.mp inside)
  rw [bytesAt, List.length_take, List.length_drop]
  omega

theorem slots_eq_wholeSlots (bytes : List UInt8) :
    RecordFile.slots (bytes.length / slotSize) bytes = wholeSlots bytes := by
  suffices general : ∀ (count : Nat) (bytes : List UInt8),
      RecordFile.slots count bytes = (List.range count).map fun index =>
        bytesAt (index * slotSize) slotSize bytes from general _ _
  intro count
  induction count with
  | zero => exact fun _ => rfl
  | succ count ih =>
      intro bytes
      have shifted : ∀ index, bytesAt (index * slotSize) slotSize
          (bytes.drop slotSize) =
            bytesAt ((index + 1) * slotSize) slotSize bytes := by
        intro index
        rw [bytesAt, bytesAt, List.drop_drop, Nat.succ_mul, Nat.add_comm]
      rw [RecordFile.slots, ih, List.range_succ_eq_map, List.map_cons,
        List.map_map]
      simp only [shifted, Function.comp_def]
      rw [Nat.zero_mul, bytesAt, List.drop_zero]

theorem wholeSlots_of_short (short : bytes.length < slotSize) :
    wholeSlots bytes = [] := by
  rw [wholeSlots, Nat.div_eq_of_lt short]
  rfl

theorem wholeSlots_append {slot : List UInt8} (whole : slot.length = slotSize)
    (bytes : List UInt8) :
    wholeSlots (slot ++ bytes) = slot :: wholeSlots bytes := by
  have count : (slot ++ bytes).length / slotSize =
      bytes.length / slotSize + 1 := by
    rw [List.length_append, whole, Nat.add_div_left _ (by decide)]
  rw [← slots_eq_wholeSlots, count, RecordFile.slots_append whole,
    slots_eq_wholeSlots]

theorem Rows.map_record? {entries : List (Option Record)}
    (rows : Rows bytes entries) : (wholeSlots bytes).map record? = entries := by
  induction rows with
  | nil short => rw [wholeSlots_of_short short, List.map_nil]
  | cons whole holds rest ih =>
      rw [wholeSlots_append whole, List.map_cons, ih, record?, holds]

end Reading

section Writing

theorem bytesAt_congr {before after : List UInt8} {position width : Nat}
    (same : ∀ offset < width,
      after[position + offset]? = before[position + offset]?) :
    bytesAt position width after = bytesAt position width before := by
  apply List.ext_getElem?
  intro offset
  rw [bytesAt, bytesAt, List.getElem?_take, List.getElem?_take,
    List.getElem?_drop, List.getElem?_drop]
  split
  · next inside => exact same offset inside
  · rfl

/-- Bytes differ in one slot at most, so that all the other whole slots stay
byte for byte the same. -/
structure ChangesOnly (index : Nat) (before after : List UInt8) : Prop where
  bytes : ∀ position, position / slotSize ≠ index →
    after[position]? = before[position]?
  slots : ∀ other, other ≠ index → other < (wholeSlots before).length →
    (wholeSlots after)[other]? = (wholeSlots before)[other]?

theorem slot_of_offset {index offset : Nat} (inside : offset < slotSize) :
    (index * slotSize + offset) / slotSize = index := by
  rw [Nat.mul_comm, Nat.mul_add_div (by decide), Nat.div_eq_of_lt inside,
    Nat.add_zero]

theorem ChangesOnly.of_bytes {index : Nat} {before after : List UInt8}
    (bytes : ∀ position, position / slotSize ≠ index →
      after[position]? = before[position]?) :
    ChangesOnly index before after := by
  refine ⟨bytes, ?_⟩
  intro other different inside
  rw [length_wholeSlots] at inside
  have same : ∀ offset < slotSize,
      after[other * slotSize + offset]? =
        before[other * slotSize + offset]? := by
    intro offset within
    apply bytes
    rw [slot_of_offset within]
    exact different
  -- the last byte of the slot is still there, hence the whole slot
  have long : other * slotSize + slotSize ≤ after.length := by
    have last := end_le_of_lt inside
    have kept := same 277 (by decide)
    simp only [slotSize, StorageFault.slotSize] at last kept ⊢
    rw [@List.getElem?_eq_getElem _ before _ (by omega)] at kept
    obtain ⟨there, _⟩ := List.getElem?_eq_some_iff.mp kept
    omega
  have still : other < after.length / slotSize := by
    rw [← Nat.succ_mul] at long
    exact (Nat.le_div_iff_mul_le (by decide)).mpr long
  rw [getElem?_wholeSlots still, getElem?_wholeSlots inside,
    bytesAt_congr same]

variable {bytes : Array UInt8}

/-- What is in a file after a piece was written at a place that it reaches. -/
theorem getElem?_overwrite {position : Nat} (reached : position ≤ bytes.size)
    (piece : List UInt8) (index : Nat) :
    (overwrite position piece bytes).toList[index]? =
      if index < position then bytes.toList[index]?
      else if index < position + piece.length then piece[index - position]?
      else bytes.toList[index]? := by
  have start : (bytes.toList.take position).length = position := by
    rw [List.length_take, Array.length_toList, Nat.min_eq_left reached]
  have parted := (List.take_append_drop position bytes.toList).symm
  rw [toList_overwrite_behind piece parted start, List.drop_drop,
    List.append_assoc, List.getElem?_append, start]
  split
  · next before => rw [List.getElem?_take_of_lt before]
  · next behind =>
      rw [List.getElem?_append]
      split
      · rw [if_pos (by omega)]
      · rw [if_neg (by omega), List.getElem?_drop]
        congr 1
        omega

theorem size_overwrite {position : Nat} (reached : position ≤ bytes.size)
    (piece : List UInt8) :
    (overwrite position piece bytes).size =
      max bytes.size (position + piece.length) := by
  have start : (bytes.toList.take position).length = position := by
    rw [List.length_take, Array.length_toList, Nat.min_eq_left reached]
  have parted := (List.take_append_drop position bytes.toList).symm
  rw [← Array.length_toList, toList_overwrite_behind piece parted start]
  simp only [List.length_append, List.length_drop, Array.length_toList, start]
  omega

variable {index : Nat} {slot : List UInt8}

theorem start_le_of_le {size : Nat} (place : index ≤ size / slotSize) :
    index * slotSize ≤ size :=
  Nat.le_trans (Nat.mul_le_mul_right slotSize place) (Nat.div_mul_le_self _ _)

/-- A slot that is written leaves all others as they are. -/
theorem changesOnly_overwrite (place : index ≤ bytes.size / slotSize)
    (whole : slot.length = slotSize) :
    ChangesOnly index bytes.toList
      (overwrite (index * slotSize) slot bytes).toList := by
  apply ChangesOnly.of_bytes
  intro position outside
  rw [getElem?_overwrite (start_le_of_le place), whole]
  split
  · rfl
  · next behind =>
      rw [if_neg]
      intro before
      apply outside
      obtain ⟨offset, rfl⟩ := Nat.exists_eq_add_of_le (Nat.le_of_not_lt behind)
      exact slot_of_offset (by omega)

/-- A slot that is written over another or behind the last is the slot at its
place. -/
theorem getElem?_wholeSlots_overwrite (place : index ≤ bytes.size / slotSize)
    (whole : slot.length = slotSize) (other : Nat) :
    (wholeSlots (overwrite (index * slotSize) slot bytes).toList)[other]? =
      if other = index then some slot
      else (wholeSlots bytes.toList)[other]? := by
  have reached := start_le_of_le place
  have size := size_overwrite reached slot
  rw [whole] at size
  split
  · next same =>
      subst same
      have inside : other <
          (overwrite (other * slotSize) slot bytes).toList.length /
            slotSize := by
        rw [Nat.lt_iff_add_one_le, Nat.le_div_iff_mul_le (by decide),
          Array.length_toList, size, Nat.succ_mul]
        exact Nat.le_max_right _ _
      rw [getElem?_wholeSlots inside]
      congr 1
      apply List.ext_getElem?
      intro offset
      rw [bytesAt, List.getElem?_take, List.getElem?_drop,
        getElem?_overwrite reached, whole]
      split
      · rw [if_neg (by omega), if_pos (by omega), Nat.add_sub_cancel_left]
      · rw [List.getElem?_eq_none (by omega)]
  · next different =>
      by_cases inside : other < (wholeSlots bytes.toList).length
      · exact (changesOnly_overwrite place whole).slots other different inside
      · rw [List.getElem?_eq_none, List.getElem?_eq_none]
        · omega
        · rw [length_wholeSlots, Array.length_toList] at inside ⊢
          simp only [slotSize, StorageFault.slotSize] at place size inside ⊢
          omega

end Writing

section Burying

theorem ofLittleEndian_pair (low high : UInt8) :
    ofLittleEndian [low, high] = 256 * high.toNat + low.toNat := by
  simp only [ofLittleEndian]
  omega

/-- Of the marks of a slot that is buried only one bit changes. -/
theorem buried_pair (low high : UInt8) :
    RecordFile.buried [low, high] = [low ||| 4, high] := by
  have first := low.toNat_lt
  have second := high.toNat_lt
  have lowest : (256 * high.toNat + low.toNat ||| 4) % 256 =
      low.toNat ||| 4 := by
    rw [@Nat.or_mod_two_pow _ _ 8]
    congr 1
    omega
  have next : (256 * high.toNat + low.toNat ||| 4) / 256 = high.toNat := by
    rw [@Nat.or_div_two_pow _ _ 8]
    simp
    omega
  have mark : 1 <<< tombstoneBit = 4 := rfl
  rw [RecordFile.buried, ofLittleEndian_pair, mark]
  simp only [littleEndian, lowest, next, Nat.mod_eq_of_lt second,
    UInt8.ofNat_toNat]
  congr 1
  rw [UInt8.ofNat_or, UInt8.ofNat_toNat]
  rfl

theorem isTombstone_cons (low : UInt8) (rest : List UInt8) :
    isTombstone (low :: rest) = low.toNat.testBit 2 := by
  have bounded : low.toNat < 2 ^ 8 := low.toNat_lt
  have marks : ofLittleEndian (bytesAt 0 2 (low :: rest)) =
      2 ^ 8 * ofLittleEndian (rest.take 1) + low.toNat := by
    simp only [bytesAt, List.drop_zero, List.take_succ_cons, ofLittleEndian]
    omega
  rw [isTombstone, marks, Nat.testBit_two_pow_mul_add _ bounded, tombstoneBit,
    if_pos (by decide)]

theorem decode_of_isTombstone {slot : List UInt8}
    (whole : slot.length = slotSize) (buried : isTombstone slot = true) :
    decode slot = .ok none := by
  rw [decode, if_neg (by rw [whole]; decide), if_pos buried]

/-- The first byte of a whole slot tells whether it is a tombstone. -/
theorem isTombstone_of_getElem? {bytes slot : List UInt8} {index : Nat}
    {low : UInt8} (found : (wholeSlots bytes)[index]? = some slot)
    (first : bytes[index * slotSize]? = some low) :
    isTombstone slot = low.toNat.testBit 2 := by
  obtain ⟨inside, _⟩ := List.getElem?_eq_some_iff.mp found
  rw [length_wholeSlots] at inside
  rw [getElem?_wholeSlots inside, Option.some_inj] at found
  obtain ⟨within, rfl⟩ := List.getElem?_eq_some_iff.mp first
  rw [← found, bytesAt, List.drop_eq_getElem_cons within]
  exact isTombstone_cons _ _

theorem decode_of_getElem? {bytes slot : List UInt8} {index : Nat}
    {low : UInt8} (found : (wholeSlots bytes)[index]? = some slot)
    (first : bytes[index * slotSize]? = some low)
    (mark : low.toNat.testBit 2 = true) : decode slot = .ok none := by
  apply decode_of_isTombstone
  · exact length_of_mem_wholeSlots (List.mem_of_getElem? found)
  · rw [isTombstone_of_getElem? found first]
    exact mark

/-- Of the bytes only one bit may have changed, that which makes a tombstone of
the slot. -/
def MarkedAt (index : Nat) (before after : List UInt8) : Prop :=
  ∀ position, after[position]? =
    if position = index * slotSize then before[position]?.map (· ||| 4)
    else before[position]?

theorem getElem?_bury {bytes : Array UInt8} {place : Nat}
    (inside : place + 2 ≤ bytes.size) (position : Nat) :
    (overwrite place (RecordFile.buried (bytes.extract place (place + 2)).toList)
        bytes).toList[position]? =
      if position = place then bytes.toList[position]?.map (· ||| 4)
      else bytes.toList[position]? := by
  have size : place + 2 ≤ bytes.toList.length := by simpa using inside
  have marks : (bytes.extract place (place + 2)).toList =
      [bytes.toList[place], bytes.toList[place + 1]] := by
    rw [Array.toList_extract, List.extract_eq_take_drop,
      Nat.add_sub_cancel_left, List.drop_eq_getElem_cons (by omega),
      List.drop_eq_getElem_cons (by omega)]
    rfl
  rw [marks, buried_pair, getElem?_overwrite (by omega)]
  simp only [List.length_cons, List.length_nil]
  by_cases before : position < place
  · rw [if_pos before, if_neg (Nat.ne_of_lt before)]
  rw [if_neg before]
  by_cases here : position = place
  · subst here
    rw [if_pos (by omega), if_pos rfl, Nat.sub_self,
      List.getElem?_eq_getElem (Nat.lt_of_succ_lt size)]
    rfl
  rw [if_neg here]
  split
  · next within =>
      obtain rfl : position = place + 1 := by omega
      rw [Nat.add_sub_cancel_left, List.getElem?_eq_getElem size]
      rfl
  · rfl

theorem markedAt_bury {bytes : Array UInt8} {index : Nat}
    (inside : index < bytes.size / slotSize) :
    MarkedAt index bytes.toList
      (overwrite (index * slotSize)
        (RecordFile.buried (bytes.extract (index * slotSize)
          (index * slotSize + 2)).toList) bytes).toList := by
  apply getElem?_bury
  exact Nat.le_trans (Nat.add_le_add_left (by decide) _)
    (end_le_of_lt inside)

namespace MarkedAt

variable {index : Nat} {before after : List UInt8}

theorem changesOnly (marked : MarkedAt index before after) :
    ChangesOnly index before after := by
  apply ChangesOnly.of_bytes
  intro position outside
  rw [marked, if_neg]
  rintro rfl
  exact outside (Nat.mul_div_cancel _ (by decide))

theorem length_eq (marked : MarkedAt index before after) :
    after.length = before.length := by
  have ends : ∀ position : Nat,
      after[position]? = none ↔ before[position]? = none := by
    intro position
    rw [marked]
    split
    · rw [Option.map_eq_none_iff]
    · rfl
  apply Nat.le_antisymm
  · rw [← List.getElem?_eq_none_iff, ends, List.getElem?_eq_none_iff]
  · rw [← List.getElem?_eq_none_iff, ← ends, List.getElem?_eq_none_iff]

theorem getElem?_wholeSlots_of_ne (marked : MarkedAt index before after)
    {other : Nat} (different : other ≠ index) :
    (wholeSlots after)[other]? = (wholeSlots before)[other]? := by
  by_cases inside : other < (wholeSlots before).length
  · exact marked.changesOnly.slots other different inside
  · have behind := Nat.le_of_not_lt inside
    rw [List.getElem?_eq_none behind, List.getElem?_eq_none]
    rwa [length_wholeSlots, marked.length_eq, ← length_wholeSlots]

theorem exists_tombstone (marked : MarkedAt index before after)
    (inside : index < before.length / slotSize) :
    ∃ slot, (wholeSlots after)[index]? = some slot ∧
      decode slot = .ok none := by
  have still : index < after.length / slotSize := by
    rwa [marked.length_eq]
  have found := getElem?_wholeSlots still
  refine ⟨_, found, ?_⟩
  have there : index * slotSize < before.length := by
    have last := end_le_of_lt inside
    simp only [slotSize, StorageFault.slotSize] at last ⊢
    omega
  have first := marked (index * slotSize)
  rw [if_pos rfl, List.getElem?_eq_getElem there] at first
  apply decode_of_getElem? found first
  simp only [UInt8.toNat_or, Nat.testBit_or]
  exact Bool.or_true _

end MarkedAt
end Burying

end Cardfile.Storage
