import Cardfile.Proofs.Storage.Loading

/-!
# Calls on a record file

A loaded file of which no two live slots have one id is an ordered list of
records: a record that is written takes the place of the one with its id or
goes to the end, and an id that is buried is taken out.  Each call that
succeeds changes one slot, and one that fails changes nothing.
-/

namespace Cardfile

open Storage

/-- What a record file is asked to do. -/
inductive FileCall where
  | write (record : Record)
  | tombstone (id : RecordId)
  | load

namespace Storage

/-- What is read of a record that was written. -/
def reread? (record : Record) : Option Record :=
  match encode record 0 with
  | .ok slot => record? slot
  | .error _ => none

theorem reread?_eq (record : Record) : reread? record = stored? record := by
  cases result : stored? record with
  | none =>
      obtain ⟨fault, failed⟩ := encode_of_not_stored? 0 result
      rw [reread?, failed]
  | some form =>
      obtain ⟨slot, encoded, _, holding⟩ := decode_encode 0 result
      simp only [reread?, encoded, record?, holding]
      rfl

/-- A record is refused, or there is a slot for it that is read as a record
with its id. -/
theorem encode_cases (record : Record) :
    (∃ fault, encode record 0 = .error fault ∧ reread? record = none) ∨
    ∃ slot form, encode record 0 = .ok slot ∧ slot.length = slotSize ∧
      decode slot = .ok (some form) ∧ reread? record = some form ∧
      form.id = record.id := by
  rw [reread?_eq]
  cases result : stored? record with
  | none =>
      obtain ⟨fault, failed⟩ := encode_of_not_stored? 0 result
      exact .inl ⟨fault, failed, rfl⟩
  | some form =>
      obtain ⟨slot, encoded, whole, holding⟩ := decode_encode 0 result
      exact .inr ⟨slot, form, encoded, whole, holding, rfl,
        id_of_stored? result⟩

/-- The list of records that a call leaves. -/
def Roll.heed (roll : List Record) : FileCall → List Record
  | .write record =>
      match reread? record with
      | some form => put roll form
      | none => roll
  | .tombstone id => strike roll id
  | .load => roll

end Storage

namespace RecordFile

/-- The file after a call, whether it succeeds or not. -/
def after (file : RecordFile) : FileCall → RecordFile
  | .write record => (file.write record).2
  | .tombstone id => (file.tombstone id).2
  | .load => file.load.2

theorem write_of_error {file : RecordFile} {record : Record}
    {fault : StorageFault} (failed : encode record 0 = .error fault) :
    file.write record = (.error (.storage fault), file) := by
  rw [write, failed]

/-- A slot is written for an id: over the live slot that is known for it, or
else behind all slots. -/
structure WrittenAt (index : Nat) (slot : List UInt8) (id : RecordId)
    (before after : RecordFile) : Prop where
  slots : ∀ other, (wholeSlots after.bytes.toList)[other]? =
    if other = index then some slot
    else (wholeSlots before.bytes.toList)[other]?
  only : ChangesOnly index before.bytes.toList after.bytes.toList
  size : after.bytes.size =
    max before.bytes.size (index * slotSize + slotSize)
  offsets : ∀ other, after.offsets[other]? =
    if id = other then some (index * slotSize) else before.offsets[other]?
  site :
    (before.offsets[id]? = some (index * slotSize) ∧
      index < (wholeSlots before.bytes.toList).length ∧
      after.next = before.next) ∨
    (before.offsets[id]? = none ∧
      index = (wholeSlots before.bytes.toList).length ∧
      after.next = before.next + slotSize)

theorem written_of_encoded {file : RecordFile} {record : Record}
    {slot : List UInt8}
    (known : ∀ place, file.offsets[record.id]? = some place →
      ∃ old, (place, old) ∈ liveSlots file.bytes.toList)
    (next : file.offsets[record.id]? = none →
      file.next = (wholeSlots file.bytes.toList).length * slotSize)
    (encoded : encode record 0 = .ok slot) (whole : slot.length = slotSize) :
    (file.write record).1 = .ok () ∧
      ∃ index, WrittenAt index slot record.id file (file.write record).2 := by
  have count : (wholeSlots file.bytes.toList).length =
      file.bytes.size / slotSize := length_wholeSlots _
  cases found : file.offsets[record.id]? with
  | some place =>
      obtain ⟨old, live⟩ := known place found
      obtain ⟨index, _, _, _, rfl⟩ := mem_liveSlots.mp live
      have inside := lt_of_mem_liveSlots live
      have within := count ▸ Nat.le_of_lt inside
      simp only [write, encoded, found]
      refine ⟨trivial, index, ?_, ?_, ?_, ?_, .inl ⟨found, inside, rfl⟩⟩
      · exact getElem?_wholeSlots_overwrite within whole
      · exact changesOnly_overwrite within whole
      · have size := size_overwrite (start_le_of_le within) slot
        rwa [whole] at size
      · intro other
        split
        · next same => exact same ▸ found
        · rfl
  | none =>
      have place := next found
      simp only [write, encoded, found, place]
      have within := Nat.le_of_eq count
      refine ⟨trivial, _, ?_, ?_, ?_, ?_, .inr ⟨found, rfl, by rw [place]⟩⟩
      · exact getElem?_wholeSlots_overwrite within whole
      · exact changesOnly_overwrite within whole
      · have size := size_overwrite (start_le_of_le within) slot
        rwa [whole] at size
      · intro other
        rw [Std.TreeMap.getElem?_insert]
        simp only [Std.compare_eq_iff_eq]

theorem tombstone_absent {file : RecordFile} {id : RecordId}
    (unknown : file.offsets[id]? = none) :
    file.tombstone id = (.error (.absent id), file) := by
  rw [tombstone, unknown]

/-- A slot is buried that is known for an id. -/
structure BuriedAt (index : Nat) (id : RecordId) (before after : RecordFile) :
    Prop where
  marked : MarkedAt index before.bytes.toList after.bytes.toList
  offsets : ∀ other, after.offsets[other]? =
    if id = other then none else before.offsets[other]?
  known : before.offsets[id]? = some (index * slotSize)
  next : after.next = before.next

theorem buried_of_known {file : RecordFile} {id : RecordId} {index : Nat}
    (known : file.offsets[id]? = some (index * slotSize))
    (inside : index < (wholeSlots file.bytes.toList).length) :
    (file.tombstone id).1 = .ok () ∧
      BuriedAt index id file (file.tombstone id).2 := by
  rw [length_wholeSlots, Array.length_toList] at inside
  have marks : ¬(file.bytes.extract (index * slotSize)
      (index * slotSize + 2)).toList.length < 2 := by
    have last := end_le_of_lt inside
    rw [Array.length_toList, Array.size_extract]
    simp only [slotSize, StorageFault.slotSize] at last ⊢
    omega
  simp only [tombstone, known, if_neg marks]
  refine ⟨trivial, markedAt_bury inside, ?_, known, rfl⟩
  intro other
  rw [Std.TreeMap.getElem?_erase]
  simp only [Std.compare_eq_iff_eq]

namespace Files

variable {file : RecordFile} {roll : List Record}

theorem of_load (loads : file.load.1 = .ok roll)
    (distinct : ((liveSlots file.bytes.toList).map (·.2.id)).Nodup) :
    file.load.2.Files roll := by
  obtain ⟨held, rows⟩ := exists_rows_of_load loads
  have once : (Roll.ids (live held)).Nodup := by
    rw [Roll.ids, ← map_snd_places held 0, List.map_map,
      ← rows.map_record?]
    exact distinct
  have hides : Hides held (visible held) [] := by
    rw [visible_eq_self once]
    exact .self held
  obtain ⟨given, charted⟩ := charted_load rows hides
  cases given.symm.trans loads
  exact ⟨_, charted, rfl⟩

theorem offsets_iff (files : file.Files roll) (id : RecordId) (place : Nat) :
    file.offsets[id]? = some place ↔
      ∃ record, (place, record) ∈ liveSlots file.bytes.toList ∧
        record.id = id := by
  obtain ⟨entries, charted, rfl⟩ := files
  obtain ⟨held, rows, hides⟩ := charted.shows
  rw [charted.offsets_iff, liveSlots, rows.map_record?, hides.eq_of_nil]

theorem next_eq (files : file.Files roll) :
    file.next = (wholeSlots file.bytes.toList).length * slotSize := by
  obtain ⟨entries, charted, rfl⟩ := files
  obtain ⟨held, rows, hides⟩ := charted.shows
  rw [charted.next, length_wholeSlots, rows.count, hides.length_eq]

theorem size_eq (files : file.Files roll) : file.size = roll.length := by
  have same : (Roll.ids roll).Perm file.offsets.keys := by
    refine (List.perm_ext_iff_of_nodup files.distinct
      Std.TreeMap.nodup_keys).mpr ?_
    intro id
    rw [Std.TreeMap.mem_keys, Std.TreeMap.mem_iff_isSome_getElem?,
      files.mem_offsets]
  rw [size, ← Std.TreeMap.length_keys, ← same.length_eq, Roll.ids,
    List.length_map]

theorem after (files : file.Files roll) (call : FileCall) :
    (file.after call).Files (Roll.heed roll call) := by
  cases call with
  | write record =>
      simp only [RecordFile.after, Roll.heed, reread?_eq]
      cases result : stored? record with
      | none =>
          obtain ⟨fault, failed⟩ := encode_of_not_stored? 0 result
          rw [write_of_error failed]
          exact files
      | some form => exact (files.write result).2
  | tombstone id =>
      by_cases present : id ∈ Roll.ids roll
      · exact (files.tombstone present).2
      · rw [RecordFile.after, files.tombstone_absent present, Roll.heed,
          Roll.strike_of_not_mem roll present]
        exact files
  | load => exact (files.loaded rfl).2

theorem foldl (files : file.Files roll) (calls : List FileCall) :
    (calls.foldl RecordFile.after file).Files
      (calls.foldl Roll.heed roll) := by
  induction calls generalizing file roll with
  | nil => exact files
  | cons call calls ih => exact ih (files.after call)

/-- A record with a slot for it is written into the slot of its id, or into a
new one. -/
theorem written (files : file.Files roll) {record : Record}
    {slot : List UInt8} (encoded : encode record 0 = .ok slot)
    (whole : slot.length = slotSize) :
    (file.write record).1 = .ok () ∧
      ∃ index, WrittenAt index slot record.id file (file.write record).2 := by
  refine written_of_encoded ?_ (fun _ => files.next_eq) encoded whole
  intro place found
  obtain ⟨old, live, _⟩ := (files.offsets_iff _ _).mp found
  exact ⟨old, live⟩

theorem slot_of_mem (files : file.Files roll) {id : RecordId}
    (present : id ∈ Roll.ids roll) :
    ∃ index old, (index * slotSize, old) ∈ liveSlots file.bytes.toList ∧
      old.id = id ∧ file.offsets[id]? = some (index * slotSize) ∧
      index < (wholeSlots file.bytes.toList).length := by
  rw [← files.mem_offsets, Option.isSome_iff_exists] at present
  obtain ⟨place, found⟩ := present
  obtain ⟨old, live, own⟩ := (files.offsets_iff _ _).mp found
  obtain ⟨index, _, _, _, rfl⟩ := mem_liveSlots.mp live
  exact ⟨index, old, live, own, found, lt_of_mem_liveSlots live⟩

end Files

/-- A file of which no two live slots have one id is loaded as an ordered list
of records, and every row of calls does to the file what it does to the list.
A record is written into the slot of its id or behind all slots, and only one
that has no slot is refused.  Burying marks the slot of the id, and fails only
if the id is not on the list.  All the other slots keep their bytes. -/
theorem roll_of_calls {file : RecordFile} {roll : List Record}
    (loads : file.load.1 = .ok roll)
    (distinct : ((liveSlots file.bytes.toList).map (·.2.id)).Nodup)
    (calls : List FileCall) :
    let reached := calls.foldl after file.load.2
    let kept := calls.foldl Roll.heed roll
    let bytes := reached.bytes.toList
    (reached.load.1 = .ok kept ∧ reached.load.2.bytes = reached.bytes) ∧
    reached.size = kept.length ∧
    (∀ record,
      (∃ fault, encode record 0 = .error fault ∧
        reached.write record = (.error (.storage fault), reached)) ∨
      ∃ slot form index, encode record 0 = .ok slot ∧
        reread? record = some form ∧
        (reached.write record).1 = .ok () ∧
        (wholeSlots (reached.write record).2.bytes.toList)[index]? =
          some slot ∧
        ChangesOnly index bytes (reached.write record).2.bytes.toList ∧
        if record.id ∈ Roll.ids kept then
          ∃ old, (index * slotSize, old) ∈ liveSlots bytes ∧
            old.id = record.id
        else index = (wholeSlots bytes).length) ∧
    ∀ id,
      if id ∈ Roll.ids kept then
        (reached.tombstone id).1 = .ok () ∧
        ∃ index old, (index * slotSize, old) ∈ liveSlots bytes ∧
          old.id = id ∧
          MarkedAt index bytes (reached.tombstone id).2.bytes.toList ∧
          ChangesOnly index bytes (reached.tombstone id).2.bytes.toList
      else reached.tombstone id = (.error (.absent id), reached) := by
  intro reached kept bytes
  have files : reached.Files kept :=
    (Files.of_load loads distinct).foldl calls
  refine ⟨⟨(files.loaded rfl).1, reached.bytes_load⟩, files.size_eq, ?_, ?_⟩
  · intro record
    rcases encode_cases record with
      ⟨fault, failed, _⟩ | ⟨slot, form, encoded, whole, _, reads, _⟩
    · exact .inl ⟨fault, failed, write_of_error failed⟩
    · obtain ⟨done, index, written⟩ := files.written encoded whole
      refine .inr ⟨slot, form, index, encoded, reads, done, ?_, written.only,
        ?_⟩
      · rw [written.slots, if_pos rfl]
      · rcases written.site with ⟨known, _, _⟩ | ⟨unknown, behind, _⟩
        · rw [if_pos]
          · exact (files.offsets_iff _ _).mp known
          · rw [← files.mem_offsets, known]
            rfl
        · rw [if_neg (files.offsets_eq_none.mp unknown)]
          exact behind
  · intro id
    split
    · next present =>
        obtain ⟨index, old, live, own, known, inside⟩ :=
          files.slot_of_mem present
        obtain ⟨done, buried⟩ := buried_of_known known inside
        exact ⟨done, index, old, live, own, buried.marked,
          buried.marked.changesOnly⟩
    · next absent => exact files.tombstone_absent absent

/-- A file with the slots of two records, a tombstone between them, and a part
of a slot behind. -/
def spaced : List UInt8 :=
  match encode { id := 1 } 0, encode { id := 2 } 0 with
  | .ok first, .ok second =>
      first ++ (List.replicate slotSize 4 ++ (second ++ [7, 7, 7]))
  | _, _ => []

theorem rows_spaced :
    Rows spaced [some { id := 1 }, none, some { id := 2 }] := by
  obtain ⟨first, encodedFirst, wholeFirst, holdsFirst⟩ :=
    @decode_encode { id := 1 } { id := 1 } 0 rfl
  obtain ⟨second, encodedSecond, wholeSecond, holdsSecond⟩ :=
    @decode_encode { id := 2 } { id := 2 } 0 rfl
  have grave : (List.replicate slotSize (4 : UInt8)).length = slotSize :=
    List.length_replicate
  have buried : decode (List.replicate slotSize 4) = .ok none :=
    decode_of_isTombstone grave (isTombstone_cons _ _)
  simp only [spaced, encodedFirst, encodedSecond]
  exact .cons wholeFirst holdsFirst
    (.cons grave buried
      (.cons wholeSecond holdsSecond (.nil (by decide))))

theorem load_spaced :
    (ofBytes spaced).load.1 = .ok [{ id := 1 }, { id := 2 }] := by
  obtain ⟨hidden, hides⟩ := exists_hides_visible
    [some { id := 1 }, none, some { id := 2 }]
  exact (@charted_load (ofBytes spaced) _ _ rows_spaced hides).1

theorem distinct_spaced :
    ((liveSlots (ofBytes spaced).bytes.toList).map (·.2.id)).Nodup := by
  have live : liveSlots (ofBytes spaced).bytes.toList =
      places [some { id := 1 }, none, some { id := 2 }] 0 :=
    congrArg (places · 0) rows_spaced.map_record?
  rw [live]
  decide

/-- An id is buried, a record takes another one's place and a record goes to
the end. -/
theorem calls_spaced :
    let loaded := (ofBytes spaced).load
    let reached :=
      [.tombstone 1, .write { id := 3 }, .load,
        .write { id := 2, points := 5 }, .tombstone 9].foldl after loaded.2
    loaded.1 = .ok [{ id := 1 }, { id := 2 }] ∧
      reached.load.1 = .ok [{ id := 2, points := 5 }, { id := 3 }] ∧
      reached.size = 2 := by
  intro loaded reached
  obtain ⟨⟨answer, _⟩, size, _⟩ := roll_of_calls load_spaced
    distinct_spaced
    [.tombstone 1, .write { id := 3 }, .load,
      .write { id := 2, points := 5 }, .tombstone 9]
  have kept : [FileCall.tombstone 1, .write { id := 3 }, .load,
      .write { id := 2, points := 5 }, .tombstone 9].foldl Roll.heed
        [{ id := 1 }, { id := 2 }] =
      [{ id := 2, points := 5 }, { id := 3 }] := by
    simp only [List.foldl_cons, List.foldl_nil, Roll.heed, reread?_eq]
    rfl
  rw [kept] at answer size
  exact ⟨load_spaced, answer, size⟩

end RecordFile

end Cardfile
