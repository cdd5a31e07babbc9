import Mathlib.Order.Bounds.Basic
import Cardfile.Proofs.Storage.WholeSlots

/-!
# What loading keeps

Loading fails at the first slot that holds neither a record nor a tombstone.
Otherwise it keeps, of all live slots with one id, the last: these are the
records that it gives, and it knows exactly their places.
-/

namespace Cardfile.Storage

/-- Whether no later slot has the id of this one. -/
def isLast (slots : List (Nat × Record)) (slot : Nat × Record) : Bool :=
  ∀ later ∈ slots, slot.1 < later.1 → later.2.id ≠ slot.2.id

/-- The live slots of the bytes, of those with one id the last only. -/
def lastLive (bytes : List UInt8) : List (Nat × Record) :=
  (liveSlots bytes).filter (isLast (liveSlots bytes))

/-- Whether the bit of the first byte is set that makes a slot a tombstone. -/
def isMarked (slot : List UInt8) : Bool :=
  slot.head?.any fun marks => marks.toNat.testBit 2

/-- The whole slots of the bytes in a row, with the same bytes in every
tombstone. -/
def bared (bytes : List UInt8) : List UInt8 :=
  ((wholeSlots bytes).map fun slot =>
    if isMarked slot then List.replicate slotSize 4 else slot).flatten

theorem decode_eq_none_iff {slot : List UInt8}
    (whole : slot.length = slotSize) :
    decode slot = .ok none ↔ isMarked slot = true := by
  have marked : isTombstone slot = isMarked slot := by
    cases slot with
    | nil => cases whole
    | cons low rest => exact isTombstone_cons low rest
  rw [← marked]
  constructor
  · intro unfilled
    by_contra live
    simp only [decode, whole, Nat.lt_irrefl, if_false, live] at unfilled
    split at unfilled
    · cases unfilled
    · split at unfilled <;> cases unfilled
  · exact decode_of_isTombstone whole

section Places

theorem places_cons_none (entries : List (Option Record)) (start : Nat) :
    places (none :: entries) start = places entries (start + 1) := by
  rw [places, List.zipIdx_cons]
  rfl

theorem places_cons_some (record : Record) (entries : List (Option Record))
    (start : Nat) :
    places (some record :: entries) start =
      (start * slotSize, record) :: places entries (start + 1) := by
  rw [places, List.zipIdx_cons]
  rfl

variable {entries : List (Option Record)} {start : Nat}

theorem map_snd_places (entries : List (Option Record)) (start : Nat) :
    (places entries start).map Prod.snd = live entries := by
  induction entries generalizing start with
  | nil => rfl
  | cons entry entries ih =>
      cases entry with
      | none =>
          rw [places_cons_none, ih]
          rfl
      | some record =>
          rw [places_cons_some, List.map_cons, ih]
          rfl

theorem mem_places {place : Nat} {record : Record} :
    (place, record) ∈ places entries start ↔
      ∃ index, entries[index]? = some (some record) ∧
        (start + index) * slotSize = place := by
  simp only [places, List.mem_filterMap]
  constructor
  · rintro ⟨⟨entry, index⟩, listed, shown⟩
    obtain ⟨reached, there⟩ :=
      List.mk_mem_zipIdx_iff_le_and_getElem?_sub.mp listed
    obtain ⟨own, rfl, pair⟩ := Option.map_eq_some_iff.mp shown
    cases pair
    refine ⟨index - start, there, ?_⟩
    rw [Nat.add_sub_cancel' reached]
  · rintro ⟨index, there, rfl⟩
    refine ⟨(some record, start + index), ?_, rfl⟩
    apply List.mk_mem_zipIdx_iff_le_and_getElem?_sub.mpr
    rw [Nat.add_sub_cancel_left]
    exact ⟨Nat.le_add_right _ _, there⟩

theorem mem_liveSlots {bytes : List UInt8} {place : Nat} {record : Record} :
    (place, record) ∈ liveSlots bytes ↔
      ∃ index slot, (wholeSlots bytes)[index]? = some slot ∧
        decode slot = .ok (some record) ∧ index * slotSize = place := by
  simp only [liveSlots, mem_places, Nat.zero_add, List.getElem?_map,
    Option.map_eq_some_iff, record?]
  constructor
  · rintro ⟨index, ⟨slot, found, reads⟩, same⟩
    refine ⟨index, slot, found, ?_, same⟩
    split at reads
    · next holds => rw [holds, reads]
    · cases reads
  · rintro ⟨index, slot, found, reads, same⟩
    refine ⟨index, ⟨slot, found, ?_⟩, same⟩
    rw [reads]

theorem mem_liveSlots_iff_at {bytes : List UInt8} {index : Nat}
    {record : Record} :
    (index * slotSize, record) ∈ liveSlots bytes ↔
      ∃ slot, (wholeSlots bytes)[index]? = some slot ∧
        decode slot = .ok (some record) := by
  rw [mem_liveSlots]
  constructor
  · rintro ⟨same, slot, found, holds, place⟩
    cases Nat.eq_of_mul_eq_mul_right (by decide) place
    exact ⟨slot, found, holds⟩
  · rintro ⟨slot, found, holds⟩
    exact ⟨index, slot, found, holds, rfl⟩

theorem lt_of_mem_liveSlots {bytes : List UInt8} {index : Nat}
    {record : Record} (live : (index * slotSize, record) ∈ liveSlots bytes) :
    index < (wholeSlots bytes).length := by
  obtain ⟨slot, found, _⟩ := mem_liveSlots_iff_at.mp live
  exact (List.getElem?_eq_some_iff.mp found).1

theorem start_le_of_mem_places {slot : Nat × Record}
    (member : slot ∈ places entries start) : start * slotSize ≤ slot.1 := by
  obtain ⟨index, _, place⟩ := mem_places.mp member
  rw [← place]
  exact Nat.mul_le_mul_right _ (Nat.le_add_right _ _)

theorem lt_of_mem_places_succ {slot : Nat × Record}
    (member : slot ∈ places entries (start + 1)) :
    start * slotSize < slot.1 := by
  have reached := start_le_of_mem_places member
  rw [Nat.succ_mul] at reached
  have some : 0 < slotSize := by decide
  omega

theorem pairwise_places (entries : List (Option Record)) (start : Nat) :
    (places entries start).Pairwise fun slot later => slot.1 < later.1 := by
  induction entries generalizing start with
  | nil => exact .nil
  | cons entry entries ih =>
      cases entry with
      | none =>
          rw [places_cons_none]
          exact ih (start + 1)
      | some record =>
          rw [places_cons_some]
          exact .cons (fun _ => lt_of_mem_places_succ) (ih (start + 1))

/-- What can be seen are the last slots with their ids. -/
theorem places_visible (entries : List (Option Record)) (start : Nat) :
    places (visible entries) start =
      (places entries start).filter (isLast (places entries start)) := by
  induction entries generalizing start with
  | nil => rfl
  | cons entry entries ih =>
      cases entry with
      | none =>
          rw [visible, places_cons_none, places_cons_none]
          exact ih (start + 1)
      | some record =>
          have others : (places entries (start + 1)).filter
              (isLast ((start * slotSize, record) ::
                places entries (start + 1))) =
                places (visible entries) (start + 1) := by
            rw [ih]
            apply List.filter_congr
            intro slot member
            have behind := lt_of_mem_places_succ member
            simp [isLast, Nat.not_lt.mpr (Nat.le_of_lt behind)]
          have first : isLast ((start * slotSize, record) ::
              places entries (start + 1)) (start * slotSize, record) = true ↔
                record.id ∉ Roll.ids (live entries) := by
            rw [← map_snd_places entries (start + 1), isLast,
              decide_eq_true_eq, List.forall_mem_cons]
            constructor
            · rintro ⟨_, last⟩ again
              obtain ⟨other, among, same⟩ := List.mem_map.mp again
              obtain ⟨slot, member, rfl⟩ := List.mem_map.mp among
              exact last slot member (lt_of_mem_places_succ member) same
            · intro once
              refine ⟨fun before => absurd before (Nat.lt_irrefl _), ?_⟩
              intro slot member _ same
              apply once
              exact same ▸ List.mem_map_of_mem (List.mem_map_of_mem member)
          rw [visible, places_cons_some, List.filter_cons, others]
          by_cases again : record.id ∈ Roll.ids (live entries)
          · rw [if_pos again, places_cons_none,
              if_neg (first.not.mpr (not_not.mpr again))]
          · rw [if_neg again, places_cons_some, if_pos (first.mpr again)]

theorem findIdx?_of_getElem? (distinct : (Roll.ids (live entries)).Nodup)
    {index : Nat} {record : Record}
    (there : entries[index]? = some (some record)) :
    entries.findIdx? (holds record.id) = some index := by
  induction entries generalizing index with
  | nil => cases there
  | cons entry entries ih =>
      cases index with
      | zero =>
          cases there
          rw [List.findIdx?_cons, if_pos (by simp [holds])]
      | succ index =>
          have rest : (Roll.ids (live entries)).Nodup :=
            distinct.sublist
              (((List.sublist_cons_self entry entries).filterMap _).map _)
          have other : holds record.id entry = false := by
            cases entry with
            | none => rfl
            | some first =>
                have listed : record.id ∈ Roll.ids (live entries) :=
                  List.mem_map_of_mem
                    (List.mem_filterMap.mpr
                      ⟨_, List.mem_of_getElem? there, rfl⟩)
                have absent := (List.nodup_cons.mp distinct).1
                simpa [holds] using (ne_of_mem_of_not_mem listed absent).symm
          rw [List.findIdx?_cons, other, ih rest there]
          rfl

end Places

end Cardfile.Storage

namespace Cardfile.RecordFile

open Storage

theorem readSlots_isSome (loading : Loading) (place : Nat)
    (slots : List (List UInt8)) :
    (readSlots loading place slots).2.isSome ↔
      ∃ slot ∈ slots, ∃ fault, decode slot = .error fault := by
  induction slots generalizing loading place with
  | nil => simp [readSlots]
  | cons slot slots ih =>
      rw [readSlots]
      split
      · next fault unread => simp [unread]
      · next buried => simp [ih, buried]
      · next record reads => simp [ih, reads]

/-- Only what the slots hold counts for reading them. -/
theorem readSlots_congr {slots others : List (List UInt8)}
    (alike : slots.map decode = others.map decode) (loading : Loading)
    (place : Nat) :
    readSlots loading place slots = readSlots loading place others := by
  induction slots generalizing others loading place with
  | nil =>
      rw [List.map_nil, eq_comm, List.map_eq_nil_iff] at alike
      rw [alike]
  | cons slot slots ih =>
      cases others with
      | nil => cases alike
      | cons other others =>
          obtain ⟨first, rest⟩ := List.cons.inj alike
          rw [readSlots, readSlots, first]
          split
          · rfl
          · exact ih rest loading _
          · exact ih rest _ _

theorem load_fails_iff (file : RecordFile) :
    (∃ fault, file.load.1 = .error fault) ↔
      ∃ slot ∈ wholeSlots file.bytes.toList,
        ∃ fault, decode slot = .error fault := by
  rw [← slots_eq_wholeSlots, ← readSlots_isSome {} 0, Array.length_toList]
  simp only [load]
  split
  · next reads => simp [reads]
  · next reads => simp [reads]

theorem load_congr {file other : RecordFile}
    (alike : (wholeSlots file.bytes.toList).map decode =
      (wholeSlots other.bytes.toList).map decode) :
    file.load.1 = other.load.1 ∧
      file.load.2.offsets = other.load.2.offsets := by
  have reads := readSlots_congr alike {} 0
  rw [← slots_eq_wholeSlots, ← slots_eq_wholeSlots, Array.length_toList,
    Array.length_toList] at reads
  simp only [load, reads]
  split <;> exact ⟨rfl, rfl⟩

theorem wholeSlots_flatten {slots : List (List UInt8)}
    (whole : ∀ slot ∈ slots, slot.length = slotSize) :
    wholeSlots slots.flatten = slots := by
  induction slots with
  | nil => rfl
  | cons slot slots ih =>
      obtain ⟨first, rest⟩ := List.forall_mem_cons.mp whole
      rw [List.flatten_cons, wholeSlots_append first, ih rest]

/-- What all tombstones hold and what stands behind the last whole slot does
not matter. -/
theorem load_bared (file : RecordFile) :
    (ofBytes (bared file.bytes.toList)).load.1 = file.load.1 ∧
      (ofBytes (bared file.bytes.toList)).load.2.offsets =
        file.load.2.offsets := by
  have alike : ∀ slot ∈ wholeSlots file.bytes.toList,
      (if isMarked slot then List.replicate slotSize 4 else slot).length =
          slotSize ∧
        decode (if isMarked slot then List.replicate slotSize 4
          else slot) = decode slot := by
    intro slot member
    have whole := length_of_mem_wholeSlots member
    split
    · next buried =>
        have length : (List.replicate slotSize (4 : UInt8)).length =
            slotSize := List.length_replicate
        refine ⟨length, ?_⟩
        rw [(decode_eq_none_iff whole).mpr buried]
        exact (decode_eq_none_iff length).mpr rfl
    · exact ⟨whole, rfl⟩
  apply load_congr
  rw [ofBytes, bared, wholeSlots_flatten, List.map_map]
  · exact List.map_congr_left fun slot member => (alike slot member).2
  · intro slot member
    obtain ⟨original, among, rfl⟩ := List.mem_map.mp member
    exact (alike original among).1

theorem isGreatest_next {size : Nat} :
    IsGreatest {place | slotSize ∣ place ∧ place ≤ size}
      (size / slotSize * slotSize) := by
  refine ⟨⟨Nat.dvd_mul_left _ _, Nat.div_mul_le_self _ _⟩, ?_⟩
  rintro place ⟨⟨count, rfl⟩, within⟩
  rw [Nat.mul_comm]
  exact Nat.mul_le_mul_right _
    ((Nat.le_div_iff_mul_le (by decide)).mpr (Nat.mul_comm _ _ ▸ within))

theorem lastLive_of_rows {bytes : List UInt8} {held : List (Option Record)}
    (rows : Rows bytes held) : lastLive bytes = places (visible held) 0 := by
  rw [lastLive, liveSlots, rows.map_record?, places_visible]

theorem Charted.offsets_iff {file : RecordFile}
    {entries : List (Option Record)} {hidden : List Record}
    (charted : file.Charted entries hidden) (id : RecordId) (place : Nat) :
    file.offsets[id]? = some place ↔
      ∃ record, (place, record) ∈ places entries 0 ∧ record.id = id := by
  rw [charted.known, Option.map_eq_some_iff]
  simp only [mem_places, Nat.zero_add]
  constructor
  · rintro ⟨index, found, rfl⟩
    obtain ⟨inside, here, _⟩ := List.findIdx?_eq_some_iff_getElem.mp found
    obtain ⟨record, filed, own⟩ := (Option.any_eq_true _ _).mp here
    refine ⟨record, ⟨index, ?_, rfl⟩, eq_of_beq own⟩
    rw [List.getElem?_eq_getElem inside, filed]
  · rintro ⟨record, ⟨index, there, rfl⟩, rfl⟩
    exact ⟨index, findIdx?_of_getElem? charted.distinct there, rfl⟩

theorem lastLive_of_load {file : RecordFile} {records : List Record}
    (loads : file.load.1 = .ok records) :
    (lastLive file.bytes.toList).map Prod.snd = records ∧
      (Roll.ids records).Nodup ∧
      (∀ id place, file.load.2.offsets[id]? = some place ↔
        ∃ record, (place, record) ∈ lastLive file.bytes.toList ∧
          record.id = id) ∧
      file.load.2.next = file.bytes.size / slotSize * slotSize := by
  obtain ⟨held, rows⟩ := exists_rows_of_load loads
  obtain ⟨hidden, hides⟩ := exists_hides_visible held
  obtain ⟨given, charted⟩ := charted_load rows hides
  cases given.symm.trans loads
  rw [lastLive_of_rows rows]
  refine ⟨map_snd_places _ _, charted.distinct, charted.offsets_iff, ?_⟩
  rw [charted.next, ← hides.length_eq, ← rows.count, Array.length_toList]

/-- Every slot that is no tombstone holds a record or cannot be read, and
loading fails exactly if one cannot be read.  Otherwise it gives the last live
slot of each id in the order of the slots, and knows the places of these and
no others; new slots go behind the last whole slot.  Tombstones and the bytes
behind may hold anything. -/
theorem load_gives_lastLive (file : RecordFile) :
    let bytes := file.bytes.toList
    let last := lastLive bytes
    let answer := file.load.1
    let loaded := file.load.2
    (∀ slot ∈ wholeSlots bytes,
      slot.length = 278 ∧ (decode slot = .ok none ↔ isMarked slot = true)) ∧
    ((∃ fault, answer = .error fault) ↔
      ∃ slot ∈ wholeSlots bytes, isMarked slot = false ∧
        ∃ fault, decode slot = .error fault) ∧
    ((∃ fault, answer = .error fault) ∨
      answer = .ok (last.map Prod.snd) ∧
      (∀ id place, loaded.offsets[id]? = some place ↔
        ∃ record, (place, record) ∈ last ∧ record.id = id) ∧
      (last.map Prod.snd).Pairwise (fun earlier later =>
        ∃ first second, loaded.offsets[earlier.id]? = some first ∧
          loaded.offsets[later.id]? = some second ∧ first < second) ∧
      IsGreatest {place | 278 ∣ place ∧ place ≤ file.bytes.size}
        loaded.next) ∧
    (ofBytes (bared bytes)).load.1 = answer ∧
      (ofBytes (bared bytes)).load.2.offsets = loaded.offsets := by
  intro bytes last answer loaded
  have marked : ∀ slot ∈ wholeSlots bytes,
      decode slot = .ok none ↔ isMarked slot = true :=
    fun slot member => decode_eq_none_iff (length_of_mem_wholeSlots member)
  refine ⟨?_, ?_, ?_, file.load_bared⟩
  · intro slot member
    exact ⟨length_of_mem_wholeSlots member, marked slot member⟩
  · rw [load_fails_iff]
    constructor
    · rintro ⟨slot, member, fault, unread⟩
      refine ⟨slot, member, ?_, fault, unread⟩
      rw [← Bool.not_eq_true]
      intro buried
      rw [(marked slot member).mpr buried] at unread
      cases unread
    · rintro ⟨slot, member, _, fault, unread⟩
      exact ⟨slot, member, fault, unread⟩
  · cases result : file.load.1 with
    | error fault => exact .inl ⟨fault, result⟩
    | ok records =>
        right
        obtain ⟨given, _, known, next⟩ := lastLive_of_load result
        refine ⟨result.trans (congrArg Except.ok given.symm), known, ?_,
          next.symm ▸ isGreatest_next⟩
        rw [List.pairwise_map]
        refine ((pairwise_places _ _).filter _).imp_of_mem ?_
        intro slot later member laterMember before
        refine ⟨slot.1, later.1, ?_, ?_, before⟩
        · exact (known _ _).mpr ⟨slot.2, member, rfl⟩
        · exact (known _ _).mpr ⟨later.2, laterMember, rfl⟩

/-- The bytes of a file in which one id is filed three times among tombstones
and another id once, with a byte behind the last slot. -/
def filedThrice : List UInt8 :=
  let slot (record : Record) (marks : Int16) : List UInt8 :=
    match encode record marks with
    | .ok bytes => bytes
    | .error _ => []
  slot { id := 1, firstName := "A" } 0 ++ slot { id := 2 } 4 ++
    slot { id := 1, firstName := "B" } 0 ++ slot { id := 2 } 0 ++
    slot { id := 1, firstName := "D" } 4 ++
    slot { id := 1, firstName := "C" } 0 ++ slot { id := 2 } 4 ++ [0]

theorem load_gives_lastLive_thrice :
    (ofBytes filedThrice).load.1 =
        .ok [{ id := 2 }, { id := 1, firstName := "C" }] ∧
      (∀ (id : RecordId) (place : Nat),
        (ofBytes filedThrice).load.2.offsets[id]? = some place ↔
          place = 834 ∧ id = 2 ∨ place = 1390 ∧ id = 1) ∧
      (ofBytes filedThrice).load.2.next = 1946 := by
  obtain ⟨_, fails, loads, _⟩ := load_gives_lastLive (ofBytes filedThrice)
  have readable : (wholeSlots filedThrice).all
      (fun slot => (decode slot).isOk) = true := by
    decide +kernel
  have last : lastLive (ofBytes filedThrice).bytes.toList =
      [(834, { id := 2 }), (1390, { id := 1, firstName := "C" })] := by
    decide +kernel
  have size : (ofBytes filedThrice).bytes.size = 1947 := by decide +kernel
  rcases loads with failed | ⟨answer, known, _, next⟩
  · obtain ⟨slot, member, _, fault, unread⟩ := fails.mp failed
    have reads := List.all_eq_true.mp readable slot member
    rw [unread] at reads
    cases reads
  · rw [last] at answer known
    rw [size] at next
    refine ⟨answer, ?_, IsGreatest.unique next isGreatest_next⟩
    intro id place
    rw [known]
    simp [or_and_right, exists_or, and_assoc, eq_comm]

end Cardfile.RecordFile
