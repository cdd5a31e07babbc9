import Cardfile.Proofs.Storage.Seating

/-!
# Reading back what was written

A file that was opened puts new slots behind its last byte, and one that was
loaded behind its last whole slot.  Where the last slot is not whole these are
two places, and a record that is put at the first of them is spread over two
slots, so that it is not found again.  Every other record is read back for as
long as nothing else is done with its id.
-/

namespace Cardfile

open Storage

/-- What is done with a file: it is opened again as it is, or the open one is
asked something. -/
inductive FileTurn where
  | reopen
  | call (call : FileCall)

namespace RecordFile

/-- The file after a turn. -/
def turn (file : RecordFile) : FileTurn → RecordFile
  | .reopen => ofBytes file.bytes.toList
  | .call call => file.after call

/-- A record goes into a new slot between two boundaries of slots. -/
def Misplaces (file : RecordFile) : FileTurn → Prop
  | .call (.write record) =>
      (file.write record).1 = .ok () ∧ file.offsets[record.id]? = none ∧
        ¬slotSize ∣ file.next
  | _ => False

/-- An id is written or buried. -/
def Touches (id : RecordId) (file : RecordFile) : FileTurn → Prop
  | .call (.write record) =>
      (file.write record).1 = .ok () ∧ record.id = id
  | .call (.tombstone other) =>
      (file.tombstone other).1 = .ok () ∧ other = id
  | _ => False

/-- No turn of a row is of the given kind. -/
def Never (kind : RecordFile → FileTurn → Prop) (file : RecordFile) :
    List FileTurn → Prop
  | [] => True
  | turn :: turns => ¬kind file turn ∧ Never kind (file.turn turn) turns

/-- A record that is written can be read back, unless its id is written or
buried again. -/
def ReadsBack (bytes : List UInt8) (earlier : List FileTurn)
    (record : Record) (later : List FileTurn) : Prop :=
  let file := earlier.foldl turn (ofBytes bytes)
  let written := (file.write record).2
  (file.write record).1 = .ok () →
  Never (Touches record.id) written later →
  ∃ form, reread? record = some form ∧
    ∀ records, (later.foldl turn written).load.1 = .ok records →
      records.filter (·.id == record.id) = [form]

theorem never_append (kind : RecordFile → FileTurn → Prop)
    (file : RecordFile) (earlier later : List FileTurn) :
    Never kind file (earlier ++ later) ↔
      Never kind file earlier ∧
        Never kind (earlier.foldl turn file) later := by
  induction earlier generalizing file with
  | nil => simp [Never]
  | cons turn turns ih =>
      simp only [List.cons_append, Never, ih, and_assoc, List.foldl_cons]

namespace Seated

variable {file : RecordFile}

/-- A record is refused, or is written where the slots begin unless the turn
misplaces it. -/
theorem write_cases (seated : file.Seated) (record : Record)
    (placed : ¬file.Misplaces (.call (.write record))) :
    (∃ fault, file.write record = (.error fault, file)) ∨
    (file.write record).1 = .ok () ∧
      ∃ index slot form,
        WrittenAt index slot record.id file (file.write record).2 ∧
        decode slot = .ok (some form) ∧ reread? record = some form ∧
        form.id = record.id := by
  rcases encode_cases record with
    ⟨fault, failed, _⟩ | ⟨slot, form, encoded, whole, holds, reads, own⟩
  · exact .inl ⟨_, write_of_error failed⟩
  · have done : (file.write record).1 = .ok () := by
      rw [fst_write, reply, encoded]
    have next : file.offsets[record.id]? = none →
        file.next = (wholeSlots file.bytes.toList).length * slotSize := by
      intro unknown
      apply seated.next
      by_contra off
      exact placed ⟨done, unknown, off⟩
    have known : ∀ place, file.offsets[record.id]? = some place →
        ∃ old, (place, old) ∈ liveSlots file.bytes.toList := by
      intro place found
      obtain ⟨old, live, _⟩ := seated.known _ place found
      exact ⟨old, live⟩
    obtain ⟨_, index, written⟩ := written_of_encoded known next encoded whole
    exact .inr ⟨done, index, slot, form, written, holds, reads, own⟩

theorem tombstone_cases (seated : file.Seated) (id : RecordId) :
    (∃ fault, file.tombstone id = (.error fault, file)) ∨
    (file.tombstone id).1 = .ok () ∧
      ∃ index, BuriedAt index id file (file.tombstone id).2 := by
  cases found : file.offsets[id]? with
  | none => exact .inl ⟨_, tombstone_absent found⟩
  | some place =>
      obtain ⟨record, live, _⟩ := seated.known id place found
      obtain ⟨index, _, _, _, rfl⟩ := mem_liveSlots.mp live
      obtain ⟨done, buried⟩ :=
        buried_of_known found (seated.slot_of_known found).1
      exact .inr ⟨done, index, buried⟩

/-- What a turn does to the slots: nothing, or it exchanges the one of the id
that it touches. -/
theorem turn_cases (seated : file.Seated) (turn : FileTurn)
    (placed : ¬file.Misplaces turn) :
    (file.turn turn).Seated ∧
      ((file.turn turn).bytes = file.bytes ∨
        ∃ index entry id, file.Touches id turn ∧
          Exchanges index entry file.bytes.toList
            (file.turn turn).bytes.toList ∧
          (∀ form, entry = some form → form.id = id) ∧
          ∀ old, (index * slotSize, old) ∈ liveSlots file.bytes.toList →
            old.id = id) := by
  cases turn with
  | reopen => exact ⟨seated_ofBytes _, .inl rfl⟩
  | call call =>
      cases call with
      | write record =>
          rcases seated.write_cases record placed with
            ⟨fault, failed⟩ | ⟨done, index, slot, form, written, holds, _, own⟩
          · simp only [RecordFile.turn, RecordFile.after, failed]
            exact ⟨seated, .inl trivial⟩
          · refine ⟨seated.written written holds own, .inr
              ⟨index, some form, record.id, ⟨done, rfl⟩,
                seated.exchanges_written written holds, ?_, ?_⟩⟩
            · rintro _ ⟨⟩
              exact own
            · intro old live
              exact seated.own_of_written written live
      | tombstone id =>
          rcases seated.tombstone_cases id with
            ⟨fault, failed⟩ | ⟨done, index, buried⟩
          · simp only [RecordFile.turn, RecordFile.after, failed]
            exact ⟨seated, .inl trivial⟩
          · refine ⟨seated.buried buried, .inr
              ⟨index, none, id, ⟨done, rfl⟩,
                seated.exchanges_buried buried, ?_, ?_⟩⟩
            · rintro _ ⟨⟩
            · exact (seated.slot_of_known buried.known).2
      | load => exact ⟨seated.load, .inl file.bytes_load⟩

theorem foldl (seated : file.Seated) (turns : List FileTurn)
    (placed : Never Misplaces file turns) :
    (turns.foldl turn file).Seated := by
  induction turns generalizing file with
  | nil => exact seated
  | cons turn turns ih =>
      exact ih (seated.turn_cases turn placed.1).1 placed.2

end Seated

/-- If all slots can be read, a record is the last with its id in the file. -/
def Retains (file : RecordFile) (form : Record) : Prop :=
  Readable file.bytes.toList →
    ∃ place, (place, form) ∈ lastLive file.bytes.toList

namespace Retains

variable {file : RecordFile} {form : Record}

theorem turn (retains : file.Retains form) (seated : file.Seated)
    (turn : FileTurn) (placed : ¬file.Misplaces turn)
    (untouched : ¬file.Touches form.id turn) :
    (file.turn turn).Retains form := by
  rcases (seated.turn_cases turn placed).2 with
    same | ⟨index, entry, id, touched, exchanges, own, former⟩
  · rw [Retains, same]
    exact retains
  · intro readable
    obtain ⟨place, last⟩ := retains (exchanges.readable readable)
    have other : id ≠ form.id := by
      rintro rfl
      exact untouched touched
    refine ⟨place, exchanges.mem_lastLive_of_ne last ?_ ?_⟩
    · rintro rfl
      exact other (former form (mem_lastLive.mp last).1).symm
    · intro entry filed
      rw [own entry filed]
      exact other

theorem foldl (retains : file.Retains form) (seated : file.Seated)
    (turns : List FileTurn) (placed : Never Misplaces file turns)
    (untouched : Never (Touches form.id) file turns) :
    (turns.foldl RecordFile.turn file).Retains form := by
  induction turns generalizing file with
  | nil => exact retains
  | cons turn turns ih =>
      exact ih (retains.turn seated turn placed.1 untouched.1)
        (seated.turn_cases turn placed.1).1 placed.2 untouched.2

theorem filter_of_load (retains : file.Retains form) {records : List Record}
    (loads : file.load.1 = .ok records) :
    records.filter (·.id == form.id) = [form] := by
  obtain ⟨place, last⟩ := retains (readable_of_load loads)
  obtain ⟨rfl, distinct, _⟩ := lastLive_of_load loads
  exact Roll.filter_of_mem distinct (List.mem_map_of_mem last)

end Retains

theorem readsBack_of_placed {bytes : List UInt8} {earlier : List FileTurn}
    {record : Record} {later : List FileTurn}
    (placed : Never Misplaces (ofBytes bytes)
      (earlier ++ .call (.write record) :: later)) :
    ReadsBack bytes earlier record later := by
  let file := earlier.foldl turn (ofBytes bytes)
  obtain ⟨before, now, behind⟩ := (never_append _ _ _ _).mp placed
  have seated : file.Seated := (seated_ofBytes bytes).foldl earlier before
  intro done untouched
  rcases seated.write_cases record now with
    ⟨fault, failed⟩ | ⟨_, index, slot, form, site, holds, reads, own⟩
  · rw [failed] at done
    cases done
  · refine ⟨form, reads, ?_⟩
    intro records loads
    have retains : (file.write record).2.Retains form := fun readable =>
      ⟨_, seated.last_of_written site holds own readable⟩
    rw [← own] at untouched ⊢
    exact (retains.foldl (seated.written site holds own) later behind
      untouched).filter_of_load loads

theorem placed_of_dvd {file : RecordFile} (whole : slotSize ∣ file.next)
    (turn : FileTurn) : ¬file.Misplaces turn := by
  rcases turn with _ | ⟨⟨record⟩ | ⟨other⟩ | _⟩
  · exact id
  · rintro ⟨_, _, off⟩
    exact off whole
  · exact id
  · exact id

/-- Nothing of a file stands between two boundaries of slots. -/
structure Aligned (file : RecordFile) : Prop where
  seated : file.Seated
  bytes : slotSize ∣ file.bytes.size
  next : slotSize ∣ file.next

theorem aligned_ofBytes {bytes : List UInt8}
    (whole : slotSize ∣ bytes.length) : (ofBytes bytes).Aligned := by
  refine ⟨seated_ofBytes bytes, ?_, whole⟩
  rw [ofBytes, List.size_toArray]
  exact whole

namespace Aligned

variable {file : RecordFile}

variable {after : RecordFile} {index : Nat} {id : RecordId}

theorem written (aligned : file.Aligned) {slot : List UInt8}
    (written : WrittenAt index slot id file after) (seated : after.Seated) :
    after.Aligned := by
  refine ⟨seated, ?_, ?_⟩
  · rw [written.size, ← Nat.succ_mul]
    rcases Nat.le_total file.bytes.size ((index + 1) * slotSize) with
      most | most
    · rw [Nat.max_eq_right most]
      exact Nat.dvd_mul_left _ _
    · rw [Nat.max_eq_left most]
      exact aligned.bytes
  · rcases written.site with ⟨_, _, next⟩ | ⟨_, _, next⟩
    · rw [next]
      exact aligned.next
    · rw [next]
      exact (Nat.dvd_add_left (Nat.dvd_refl _)).mpr aligned.next

theorem buried (aligned : file.Aligned) (buried : BuriedAt index id file after)
    (seated : after.Seated) : after.Aligned := by
  refine ⟨seated, ?_, ?_⟩
  · rw [← Array.length_toList, buried.marked.length_eq, Array.length_toList]
    exact aligned.bytes
  · rw [buried.next]
    exact aligned.next

theorem load (aligned : file.Aligned) : file.load.2.Aligned := by
  refine ⟨aligned.seated.load, ?_, ?_⟩
  · rw [bytes_load]
    exact aligned.bytes
  · rw [RecordFile.load]
    split
    · exact aligned.next
    · exact Nat.dvd_mul_left _ _

theorem turn (aligned : file.Aligned) (turn : FileTurn) :
    (file.turn turn).Aligned := by
  have placed := placed_of_dvd aligned.next
  have seated := (aligned.seated.turn_cases turn (placed turn)).1
  cases turn with
  | reopen =>
      apply aligned_ofBytes
      rw [Array.length_toList]
      exact aligned.bytes
  | call call =>
      cases call with
      | write record =>
          rcases aligned.seated.write_cases record (placed _) with
            ⟨fault, failed⟩ | ⟨_, index, slot, form, site, _⟩
          · simp only [RecordFile.turn, RecordFile.after, failed]
            exact aligned
          · exact aligned.written site seated
      | tombstone id =>
          rcases aligned.seated.tombstone_cases id with
            ⟨fault, failed⟩ | ⟨_, index, site⟩
          · simp only [RecordFile.turn, RecordFile.after, failed]
            exact aligned
          · exact aligned.buried site seated
      | load => exact aligned.load

theorem never (aligned : file.Aligned) (turns : List FileTurn) :
    Never Misplaces file turns := by
  induction turns generalizing file with
  | nil => trivial
  | cons turn turns ih =>
      exact ⟨placed_of_dvd aligned.next turn, ih (aligned.turn turn)⟩

end Aligned

theorem load_of_tombstones {file : RecordFile}
    (buried : ∀ slot ∈ wholeSlots file.bytes.toList,
      decode slot = .ok none) : file.load.1 = .ok [] := by
  have readable : Readable file.bytes.toList := fun slot member =>
    ⟨none, buried slot member⟩
  obtain ⟨records, loads⟩ := exists_load_of_readable readable
  obtain ⟨rfl, _⟩ := lastLive_of_load loads
  have none : lastLive file.bytes.toList = [] := by
    rw [List.eq_nil_iff_forall_not_mem]
    rintro ⟨place, record⟩ last
    obtain ⟨index, slot, there, holds, _⟩ :=
      mem_liveSlots.mp (mem_lastLive.mp last).1
    cases (buried slot (List.mem_of_getElem? there)).symm.trans holds
  rw [none] at loads
  exact loads

/-- A record that is written behind a part of a tombstone is lost. -/
theorem lost_behind_part {length : Nat} (off : ¬slotSize ∣ length) :
    let opened := ofBytes (List.replicate length 4)
    (opened.write { id := 1 }).1 = .ok () ∧
      (opened.write { id := 1 }).2.load.1 = .ok [] := by
  intro opened
  obtain ⟨slot, encoded, whole, _⟩ :=
    @decode_encode { id := 1 } { id := 1 } 0 rfl
  let written := (opened.write { id := 1 }).2
  have size : opened.bytes.size = length := List.length_replicate
  have reached := Nat.le_of_eq size.symm
  have bytes : written.bytes = overwrite length slot opened.bytes := by
    have unknown : opened.offsets[(1 : RecordId)]? = none := by
      simp [opened, ofBytes]
    have next : opened.next = length := List.length_replicate
    simp only [written, write, encoded, unknown, next]
  refine ⟨by rw [fst_write, reply, encoded], ?_⟩
  apply load_of_tombstones
  intro grave member
  obtain ⟨index, found⟩ := List.mem_iff_getElem?.mp member
  have before : index * slotSize < length := by
    obtain ⟨inside, _⟩ := List.getElem?_eq_some_iff.mp found
    rw [length_wholeSlots, Array.length_toList, bytes,
      size_overwrite reached, whole, size] at inside
    have last := end_le_of_lt inside
    have apart : index * slotSize ≠ length := by
      rintro rfl
      exact off (Nat.dvd_mul_left _ _)
    omega
  have first : written.bytes.toList[index * slotSize]? = some 4 := by
    rw [bytes, getElem?_overwrite reached, if_pos before]
    simp only [opened, ofBytes]
    rw [List.getElem?_replicate, if_pos before]
  exact decode_of_getElem? found first rfl

/-- On a file of any length, a record that is written is read back as long as
no record is put between two boundaries of slots.  All rows of turns on all
files of one length read back what they write exactly if this is the length of
whole slots. -/
theorem reads_back (length : Nat) :
    (∀ bytes : List UInt8, bytes.length = length →
      ∀ earlier record later,
        Never Misplaces (ofBytes bytes)
          (earlier ++ .call (.write record) :: later) →
        ReadsBack bytes earlier record later) ∧
    ((∀ bytes : List UInt8, bytes.length = length →
      ∀ earlier record later, ReadsBack bytes earlier record later) ↔
        slotSize ∣ length) := by
  refine ⟨?_, ?_, ?_⟩
  · intro bytes _ earlier record later placed
    exact readsBack_of_placed placed
  · intro reads
    by_contra off
    obtain ⟨done, lost⟩ := lost_behind_part off
    obtain ⟨form, _, found⟩ := reads (List.replicate length 4)
      List.length_replicate [] { id := 1 } [] done trivial
    cases found [] lost
  · rintro whole bytes rfl earlier record later
    exact readsBack_of_placed ((aligned_ofBytes whole).never _)

/-- A single byte is enough for a new record to be lost. -/
theorem lost_behind_byte :
    let opened := ofBytes [4]
    (opened.write { id := 1 }).1 = .ok () ∧
      reread? { id := 1 } = some { id := 1 } ∧
      (opened.write { id := 1 }).2.load.1 = .ok [] ∧
      ¬ReadsBack [4] [] { id := 1 } [] := by
  obtain ⟨done, lost⟩ := @lost_behind_part 1 (by decide)
  refine ⟨done, reread?_eq _, lost, ?_⟩
  intro reads
  obtain ⟨form, _, found⟩ := reads done trivial
  cases found [] lost

theorem Files.placed {file : RecordFile} {roll : List Record}
    (files : file.Files roll) (turn : FileTurn) : ¬file.Misplaces turn := by
  apply placed_of_dvd
  rw [files.next_eq]
  exact Nat.dvd_mul_left _ _

/-- Once the file is loaded, a part of a slot behind does no harm. -/
theorem reads_back_spaced :
    let earlier : List FileTurn := [.call .load]
    let later : List FileTurn :=
      [.call (.write { id := 4 }), .call (.tombstone 1), .reopen]
    let written := ((ofBytes spaced).load.2.write { id := 3 }).2
    let records : List Record := [{ id := 2 }, { id := 3 }, { id := 4 }]
    Never Misplaces (ofBytes spaced)
        (earlier ++ .call (.write { id := 3 }) :: later) ∧
      Never (Touches 3) written later ∧
      (later.foldl turn written).load.1 = .ok records ∧
      records.filter (·.id == 3) = [{ id := 3 }] := by
  intro earlier later written records
  have loaded := Files.of_load load_spaced distinct_spaced
  have first := loaded.after (.write { id := 3 })
  have second := first.after (.write { id := 4 })
  have files := second.after (.tombstone 1)
  have placed : Never Misplaces (ofBytes spaced)
      (earlier ++ .call (.write { id := 3 }) :: later) :=
    ⟨id, loaded.placed _, first.placed _, second.placed _, id, trivial⟩
  have untouched : Never (Touches 3) written later := by
    refine ⟨?_, ?_, id, trivial⟩
    · rintro ⟨_, same⟩
      exact absurd same (by decide)
    · rintro ⟨_, same⟩
      exact absurd same (by decide)
  have done : ((ofBytes spaced).load.2.write { id := 3 }).1 = .ok () := by
    obtain ⟨slot, encoded, _⟩ := @decode_encode { id := 3 } { id := 3 } 0 rfl
    rw [fst_write, reply, encoded]
  have loads : (later.foldl turn written).load.1 = .ok records := by
    have kept : Roll.heed (Roll.heed (Roll.heed [{ id := 1 }, { id := 2 }]
        (.write { id := 3 })) (.write { id := 4 })) (.tombstone 1) =
          records := by
      simp only [Roll.heed, reread?_eq]
      rfl
    rw [kept] at files
    obtain ⟨_, again, _⟩ := files.load
    simp only [after] at again
    simp only [later, written, List.foldl_cons, List.foldl_nil, turn, after,
      again]
  obtain ⟨form, reads, found⟩ :=
    (reads_back spaced.length).1 spaced rfl earlier { id := 3 } later placed
      done untouched
  have same : reread? { id := 3 } = some { id := 3 } := reread?_eq _
  cases reads.symm.trans same
  exact ⟨placed, untouched, loads, found records loads⟩

end RecordFile

end Cardfile
