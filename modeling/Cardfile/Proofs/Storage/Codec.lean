import Mathlib.Data.List.TakeWhile
import Cardfile.Proofs.Date
import Cardfile.Proofs.Storage.Bytes
import Cardfile.Proofs.Text.Utf8
import Cardfile.Storage.Slot

/-!
# What a slot keeps of a record

A slot keeps a record in its stored form: names are cut, characters outside
ASCII are replaced, and the number is brought to a scale that sixteen bytes
can hold.  Decoding an encoded record gives its stored form, and a record in
stored form is kept as it is.
-/

namespace Cardfile

namespace Decimal

/-- The numbers that sixteen bytes hold. -/
structure Stored (number : Decimal) : Prop where
  whole : 0 ≤ number.scale
  places : number.scale ≤ mostPlaces
  bounded : number.mantissa.natAbs < 1 <<< 96

theorem scale_roundedTo (most : Int) (number : Decimal) :
    (number.roundedTo most).scale ≤ most := by
  simp only [roundedTo]
  split
  · assumption
  · split <;> exact Int.le_refl most

theorem scale_unfolded? {most : Nat} {number unfolded : Decimal}
    (result : number.unfolded? most = some unfolded) :
    unfolded = number ∧ 0 ≤ number.scale ∨ unfolded.scale = 0 := by
  simp only [unfolded?] at result
  split at result
  · next whole => exact .inl ⟨(Option.some.inj result).symm, whole⟩
  · split at result
    · exact .inr (Option.some.inj result ▸ rfl)
    · split at result
      · exact .inr (Option.some.inj result ▸ rfl)
      · cases result

theorem Stored.of_stored? {number form : Decimal}
    (result : number.stored? = some form) : form.Stored := by
  simp only [stored?] at result
  split at result
  · next brought unfolded =>
      split at result
      · next bounded =>
          cases result
          have places := scale_roundedTo mostPlaces number
          rcases scale_unfolded? unfolded with ⟨same, whole⟩ | zero
          · subst same
            exact ⟨whole, places, bounded⟩
          · exact ⟨Int.le_of_eq zero.symm, zero ▸ by decide, bounded⟩
      · cases result
  · cases result

theorem Stored.stored? {number : Decimal} (stored : number.Stored) :
    number.stored? = some number := by
  have places : number.scale ≤ (mostPlaces : Int) := stored.places
  simpa [Decimal.stored?, roundedTo, unfolded?, places, stored.whole]
    using stored.bounded

theorem length_toBytes (number : Decimal) : number.toBytes.length = 16 := by
  simp [toBytes]

private theorem flags_scale {scale : Nat} (places : scale ≤ 28) (top : Nat)
    (sign : top = 0 ∨ top = 1 <<< 31) :
    (((scale <<< 16) + top) >>> 16) % UInt8.size = scale := by
  simp only [Nat.shiftLeft_eq, Nat.shiftRight_eq_div_pow, UInt8.size] at sign ⊢
  omega

private theorem flags_sign {scale : Nat} (places : scale ≤ 28) (top : Nat)
    (sign : top = 0 ∨ top = 1 <<< 31) :
    ((scale <<< 16) + top).testBit 31 = decide (top ≠ 0) := by
  rw [Nat.testBit_eq_decide_div_mod_eq]
  simp only [Nat.shiftLeft_eq] at sign ⊢
  congr 1
  simp only [eq_iff_iff]
  omega

theorem Stored.decode_toBytes {number : Decimal} (stored : number.Stored) :
    decode number.toBytes = number := by
  let top := if number.mantissa < 0 then 1 <<< 31 else 0
  have sign : top = 0 ∨ top = 1 <<< 31 := by
    simp only [top]
    split
    · exact .inr rfl
    · exact .inl rfl
  have places : number.scale.toNat ≤ 28 := by
    have bound := stored.places
    simp only [mostPlaces] at bound
    omega
  have magnitude : Storage.ofLittleEndian
      (Storage.bytesAt 0 12 number.toBytes) = number.mantissa.natAbs := by
    rw [← @Storage.ofLittleEndian_littleEndian 12 _ stored.bounded]
    rfl
  have flags : Storage.ofLittleEndian
      (Storage.bytesAt 12 4 number.toBytes) =
        (number.scale.toNat <<< 16) + top := by
    have bound : (number.scale.toNat <<< 16) + top < Nat.pow 256 4 := by
      have small : Nat.pow 256 4 = 4294967296 := rfl
      simp only [Nat.shiftLeft_eq] at sign ⊢
      omega
    rw [← Storage.ofLittleEndian_littleEndian bound]
    rfl
  have scale : (number.scale.toNat : Int) = number.scale :=
    Int.toNat_of_nonneg stored.whole
  simp only [decode, magnitude, flags, flags_scale places top sign,
    flags_sign places top sign, scale]
  by_cases negative : number.mantissa < 0
  · have set : top ≠ 0 := by simp [top, negative]
    have signed : -(number.mantissa.natAbs : Int) = number.mantissa := by
      omega
    rw [if_pos (decide_eq_true set), signed]
  · have clear : top = 0 := by simp [top, negative]
    have signed : (number.mantissa.natAbs : Int) = number.mantissa := by
      omega
    rw [if_neg (by simp [clear]), signed]

end Decimal

namespace Storage

/-- The character that a slot keeps in place of one of a name. -/
def storedChar (c : Char) : Char :=
  if c.toNat < 128 then c else '?'

/-- What a slot keeps of a name. -/
def storedName (name : String) : String :=
  String.ofList
    (((name.toList.take nameSize).map storedChar).takeWhile (· != '\x00'))

theorem nameByte_lt (c : Char) : nameByte c < 0x80 := by
  simp only [nameByte]
  split
  · next ascii =>
      rw [UInt8.lt_iff_toNat_lt, UInt8.toNat_ofNat']
      have small : (0x80 : UInt8).toNat = 128 := rfl
      omega
  · decide

theorem ofNat_nameByte (c : Char) :
    Char.ofNat (nameByte c).toNat = storedChar c := by
  simp only [nameByte, storedChar]
  split
  · next ascii =>
      have small : c.toNat % 256 = c.toNat := by omega
      simp [UInt8.toNat_ofNat', small]
  · rfl

theorem nameByte_ne_zero (c : Char) :
    (nameByte c != 0) = (storedChar c != '\x00') := by
  simp only [nameByte, storedChar]
  split
  · next ascii =>
      have same : UInt8.ofNat c.toNat = 0 ↔ c = '\x00' := by
        constructor
        · intro zero
          have value : (UInt8.ofNat c.toNat).toNat = 0 := by
            rw [zero]
            rfl
          rw [UInt8.toNat_ofNat'] at value
          exact Char.toNat_inj.mp
            (show c.toNat = ('\x00' : Char).toNat by simp; omega)
        · rintro rfl
          rfl
      rw [Bool.eq_iff_iff, bne_iff_ne, bne_iff_ne, ne_eq, ne_eq, same]
  · rfl

theorem length_nameBytes (name : String) :
    (nameBytes name).length = nameSize := by
  refine length_zeroExtended ?_
  simp only [List.length_map, List.length_take]
  omega

private theorem takeWhile_zeroExtended (width : Nat) (bytes : List UInt8) :
    (zeroExtended width bytes).takeWhile (· != 0) =
      bytes.takeWhile (· != 0) := by
  rw [zeroExtended, List.takeWhile_append]
  split
  · next whole =>
      have all := (List.takeWhile_prefix (p := (· != 0)) (l := bytes)).eq_of_length
        whole
      simp [all]
  · rfl

theorem nameOfBytes_nameBytes (name : String) :
    nameOfBytes (nameBytes name) = storedName name := by
  have chars : ((name.toList.take nameSize).map nameByte).takeWhile (· != 0) =
      (((name.toList.take nameSize).takeWhile
        fun c => storedChar c != '\x00').map nameByte) := by
    have same : ((· != 0) ∘ nameByte) = fun c => storedChar c != '\x00' :=
      funext nameByte_ne_zero
    rw [List.takeWhile_map, same]
  have ascii : ∀ byte ∈ ((name.toList.take nameSize).takeWhile
      fun c => storedChar c != '\x00').map nameByte, byte < 0x80 := by
    intro byte member
    obtain ⟨c, _, rfl⟩ := List.mem_map.mp member
    exact nameByte_lt c
  rw [nameOfBytes, nameBytes, takeWhile_zeroExtended, chars,
    Text.Utf8.decode_ascii ascii, List.map_map, storedName,
    List.takeWhile_map]
  exact congrArg String.ofList
    (List.map_congr_left fun c _ => ofNat_nameByte c)

/-- A name that a slot can hold as it is. -/
structure Plain (name : String) : Prop where
  short : name.length ≤ nameSize
  ascii : ∀ c ∈ name.toList, c.toNat < 128
  whole : '\x00' ∉ name.toList

theorem Plain.storedName_eq {name : String} (plain : Plain name) :
    storedName name = name := by
  have all : name.toList.take nameSize = name.toList :=
    List.take_of_length_le plain.short
  have same : name.toList.map storedChar = name.toList := by
    calc name.toList.map storedChar
        = name.toList.map id :=
          List.map_congr_left fun c member => if_pos (plain.ascii c member)
      _ = name.toList := List.map_id _
  have ended : name.toList.takeWhile (· != '\x00') = name.toList := by
    apply List.takeWhile_eq_self_iff.mpr
    intro c member
    exact bne_iff_ne.mpr (ne_of_mem_of_not_mem member plain.whole)
  rw [storedName, all, same, ended, String.ofList_toList]

theorem toNat_storedChar_lt (c : Char) : (storedChar c).toNat < 128 := by
  simp only [storedChar]
  split
  · assumption
  · decide

theorem plain_storedName (name : String) : Plain (storedName name) := by
  have kept := List.takeWhile_prefix (p := (· != '\x00'))
    (l := (name.toList.take nameSize).map storedChar)
  constructor
  · have length := kept.length_le
    rw [List.length_map, List.length_take] at length
    rw [storedName, String.length_ofList]
    omega
  · intro c member
    rw [storedName, String.toList_ofList] at member
    obtain ⟨original, _, rfl⟩ := List.mem_map.mp (kept.subset member)
    exact toNat_storedChar_lt original
  · intro member
    rw [storedName, String.toList_ofList] at member
    simpa using List.mem_takeWhile_imp member

theorem storedName_storedName (name : String) :
    storedName (storedName name) = storedName name :=
  (plain_storedName name).storedName_eq

theorem storedName_eq_iff (name : String) :
    storedName name = name ↔ Plain name := by
  constructor
  · intro same
    exact same ▸ plain_storedName name
  · exact Plain.storedName_eq

/-- The pieces of a slot, whose number has the form in which it is kept. -/
def pieces (record : Record) (marks : Int16) (number : Decimal) :
    List (List UInt8) :=
  [littleEndian 2 marks.toUInt16.toNat,
    littleEndian 4 record.id.toUInt32.toNat,
    nameBytes record.firstName,
    nameBytes record.lastName,
    littleEndian 4 (Int32.ofInt record.dateOfBirth.year).toUInt32.toNat,
    littleEndian 4 record.dateOfBirth.month,
    littleEndian 4 record.dateOfBirth.day,
    number.toBytes,
    littleEndian 2 record.points.toUInt16.toNat,
    littleEndian 2 record.letter.toNat]

/-- The stored form of a record, if it has one. -/
def stored? (record : Record) : Option Record :=
  if UInt16.size ≤ record.letter.toNat then none
  else record.number.stored?.map fun number =>
    { record with
      firstName := storedName record.firstName
      lastName := storedName record.lastName
      number := number }

theorem stored?_eq_some {record form : Record}
    (result : stored? record = some form) :
    record.letter.toNat < UInt16.size ∧
      ∃ number, record.number.stored? = some number ∧
        form = { record with
          firstName := storedName record.firstName
          lastName := storedName record.lastName
          number := number } := by
  simp only [stored?] at result
  split at result
  · cases result
  · next narrow =>
      obtain ⟨number, kept, rfl⟩ := Option.map_eq_some_iff.mp result
      exact ⟨Nat.lt_of_not_le narrow, number, kept, rfl⟩

theorem id_of_stored? {record form : Record}
    (result : stored? record = some form) : form.id = record.id := by
  obtain ⟨_, _, _, rfl⟩ := stored?_eq_some result
  rfl

theorem stored?_idem {record form : Record}
    (result : stored? record = some form) : stored? form = some form := by
  obtain ⟨narrow, number, kept, rfl⟩ := stored?_eq_some result
  have again := (Decimal.Stored.of_stored? kept).stored?
  simp [stored?, Nat.not_le.mpr narrow, again, storedName_storedName]

theorem encode_of_stored? {record form : Record} (marks : Int16)
    (result : stored? record = some form) :
    encode record marks =
      .ok (pieces record marks form.number).flatten := by
  obtain ⟨narrow, number, kept, rfl⟩ := stored?_eq_some result
  simp [encode, Nat.not_le.mpr narrow, Decimal.encode?, kept, pieces]

theorem encode_of_not_stored? {record : Record} (marks : Int16)
    (result : stored? record = none) :
    ∃ fault, encode record marks = .error fault := by
  simp only [stored?] at result
  simp only [encode]
  split at result
  · next wide =>
      rw [if_pos wide]
      exact ⟨_, rfl⟩
  · next narrow =>
      rw [if_neg narrow]
      rw [Option.map_eq_none_iff] at result
      simp [Decimal.encode?, result]

private theorem ofNat_toNat (number : Int32) :
    Int32.ofNat number.toUInt32.toNat = number := by
  apply Int32.toBitVec_inj.mp
  simp

private theorem shortOfNat_toNat (number : Int16) :
    Int16.ofNat number.toUInt16.toNat = number := by
  apply Int16.toBitVec_inj.mp
  simp

private theorem charOfCode?_toNat (c : Char) :
    Text.charOfCode? c.toNat = some c := by
  have valid : c.toNat.isValidChar := c.valid
  rw [Text.charOfCode?, dif_pos valid]
  rfl

theorem dayOf?_date (date : Date) :
    dayOf? (Int32.ofInt date.year) (Int32.ofNat date.month)
      (Int32.ofNat date.day) = some date := by
  obtain ⟨early, late, month, day⟩ := date.bounds
  have yearKept : (Int32.ofInt date.year).toInt = date.year :=
    Int32.toInt_ofInt_of_le (by omega) (by omega)
  have monthKept : (Int32.ofNat date.month).toInt = date.month :=
    Int32.toInt_ofNat_of_lt (by omega)
  have dayKept : (Int32.ofNat date.day).toInt = date.day :=
    Int32.toInt_ofNat_of_lt (by omega)
  simp [dayOf?, yearKept, monthKept, dayKept, Date.of?, date.onCalendar]

theorem length_flatten_pieces (record : Record) (marks : Int16)
    (number : Decimal) :
    (pieces record marks number).flatten.length = slotSize := by
  simp [pieces, length_nameBytes, nameSize, Decimal.length_toBytes,
    StorageFault.slotSize]

/-- A slot that is no tombstone gives back all that it was made of. -/
theorem decode_pieces (record : Record) (marks : Int16) {number : Decimal}
    (stored : number.Stored) (narrow : record.letter.toNat < UInt16.size) :
    decode (pieces record marks number).flatten =
      .ok (if marks.toUInt16.toNat.testBit tombstoneBit then none
        else some { record with
          firstName := storedName record.firstName
          lastName := storedName record.lastName
          number := number }) := by
  have long : ¬(pieces record marks number).flatten.length < slotSize := by
    rw [length_flatten_pieces]
    exact Nat.lt_irrefl _
  have before : ∀ index,
      ((pieces record marks number).take index).flatten.length =
        (([2, 4, 120, 120, 4, 4, 4, 16, 2, 2] : List Nat).take index).sum := by
    intro index
    rw [List.length_flatten, List.map_take]
    simp [pieces, length_nameBytes, nameSize, Decimal.length_toBytes]
  generalize listed : pieces record marks number = parts at before long ⊢
  simp only [pieces] at listed
  obtain ⟨_, _, month, day⟩ := record.dateOfBirth.bounds
  have marksAt : ofLittleEndian (bytesAt 0 2 parts.flatten) =
      marks.toUInt16.toNat :=
    number_flatten 0 (by rw [← listed]; rfl) (before 0)
      marks.toUInt16.toNat_lt
  have idAt : ofLittleEndian (bytesAt 2 4 parts.flatten) =
      record.id.toUInt32.toNat :=
    number_flatten 1 (by rw [← listed]; rfl) (before 1)
      record.id.toUInt32.toNat_lt
  have firstAt : bytesAt 6 nameSize parts.flatten =
      nameBytes record.firstName :=
    bytesAt_flatten 2 (by rw [← listed]; rfl) (before 2)
      (length_nameBytes _)
  have lastAt : bytesAt 126 nameSize parts.flatten =
      nameBytes record.lastName :=
    bytesAt_flatten 3 (by rw [← listed]; rfl) (before 3)
      (length_nameBytes _)
  have yearAt : ofLittleEndian (bytesAt 246 4 parts.flatten) =
      (Int32.ofInt record.dateOfBirth.year).toUInt32.toNat :=
    number_flatten 4 (by rw [← listed]; rfl) (before 4) (UInt32.toNat_lt _)
  have monthAt : ofLittleEndian (bytesAt 250 4 parts.flatten) =
      record.dateOfBirth.month :=
    number_flatten 5 (by rw [← listed]; rfl) (before 5)
      (Nat.lt_of_le_of_lt month (by decide))
  have dayAt : ofLittleEndian (bytesAt 254 4 parts.flatten) =
      record.dateOfBirth.day :=
    number_flatten 6 (by rw [← listed]; rfl) (before 6)
      (Nat.lt_of_le_of_lt day (by decide))
  have numberAt : bytesAt 258 16 parts.flatten = number.toBytes :=
    bytesAt_flatten 7 (by rw [← listed]; rfl) (before 7)
      (Decimal.length_toBytes number)
  have pointsAt : ofLittleEndian (bytesAt 274 2 parts.flatten) =
      record.points.toUInt16.toNat :=
    number_flatten 8 (by rw [← listed]; rfl) (before 8)
      record.points.toUInt16.toNat_lt
  have letterAt : ofLittleEndian (bytesAt 276 2 parts.flatten) =
      record.letter.toNat :=
    number_flatten 9 (by rw [← listed]; rfl) (before 9) narrow
  simp only [decode, if_neg long, isTombstone, marksAt, int32At, idAt,
    yearAt, monthAt, dayAt, firstAt, lastAt, numberAt, pointsAt, letterAt,
    ofNat_toNat, shortOfNat_toNat, charOfCode?_toNat, dayOf?_date,
    nameOfBytes_nameBytes, stored.decode_toBytes]
  split <;> rfl

/-- Decoding an encoded record gives its stored form, or nothing if the slot
is marked as a tombstone. -/
theorem decode_encode {record form : Record} (marks : Int16)
    (result : stored? record = some form) :
    ∃ slot, encode record marks = .ok slot ∧ slot.length = slotSize ∧
      decode slot =
        .ok (if marks.toUInt16.toNat.testBit tombstoneBit then none
          else some form) := by
  refine ⟨_, encode_of_stored? marks result, length_flatten_pieces .., ?_⟩
  obtain ⟨narrow, number, kept, rfl⟩ := stored?_eq_some result
  exact decode_pieces record marks (.of_stored? kept) narrow

end Storage

end Cardfile
