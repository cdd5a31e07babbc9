import Cardfile.Proofs.Storage.Hidden

/-!
# Record files as rolls

A record file is charted by a row of entries if its bytes show these entries
and its table knows the place of every record.  Then it behaves as a roll:
writing puts the stored form of a record on the roll, and burying strikes an
id off.  Nothing of this touches a hidden record.  If there is none, loading
gives the roll back.
-/

namespace Cardfile.RecordFile

open Storage

/-- Takes in the entries of a row of slots, the first of them at a place. -/
def Loading.takeAll (loading : Loading) (place : Nat) :
    List (Option Record) → Loading
  | [] => loading
  | none :: entries => loading.takeAll (place + slotSize) entries
  | some record :: entries =>
      (loading.take place record).takeAll (place + slotSize) entries

theorem slots_append {slot : List UInt8} (whole : slot.length = slotSize)
    (count : Nat) (bytes : List UInt8) :
    slots (count + 1) (slot ++ bytes) = slot :: slots count bytes := by
  rw [slots, ← whole, List.take_left, List.drop_left]

theorem readSlots_of_rows {bytes : List UInt8}
    {entries : List (Option Record)} (rows : Rows bytes entries)
    (loading : Loading) (place : Nat) :
    readSlots loading place (slots entries.length bytes) =
      (loading.takeAll place entries, none) := by
  induction rows generalizing loading place with
  | nil short => rfl
  | @cons slot bytes entry entries whole holds rest ih =>
      rw [List.length_cons, slots_append whole, readSlots, holds]
      cases entry with
      | none => exact ih loading (place + slotSize)
      | some record => exact ih (loading.take place record) (place + slotSize)

theorem load_of_rows {file : RecordFile} {entries : List (Option Record)}
    (rows : Rows file.bytes.toList entries) :
    file.load =
      (.ok (Loading.takeAll {} 0 entries).records,
        { file with
          offsets := (Loading.takeAll {} 0 entries).offsets
          next := entries.length * slotSize }) := by
  have count : file.bytes.size / slotSize = entries.length := by
    rw [← Array.length_toList]
    exact rows.count
  simp only [load, count, readSlots_of_rows rows]

theorem records_takeAll (entries : List (Option Record)) (loading : Loading)
    (place : Nat) :
    (loading.takeAll place entries).records =
      loading.records.filter (fun kept => kept.id ∉ Roll.ids (live entries)) ++
        live (visible entries) := by
  induction entries generalizing loading place with
  | nil => simp [Loading.takeAll, visible, live, Roll.ids]
  | cons entry entries ih =>
      cases entry with
      | none => exact ih loading (place + slotSize)
      | some record =>
          have whole : Roll.ids (live (some record :: entries)) =
              record.id :: Roll.ids (live entries) := rfl
          have earlier : ∀ kept : Record,
              (decide (kept.id ∉ Roll.ids (live entries)) &&
                kept.id != record.id) =
                decide (kept.id ∉ record.id :: Roll.ids (live entries)) := by
            intro kept
            by_cases same : kept.id = record.id <;> simp [same]
          rw [Loading.takeAll, ih, Loading.take, live_visible_cons, whole,
            List.filter_append, List.filter_filter]
          simp only [earlier]
          split
          · next again => simp [again]
          · next last => simp [last]

theorem offsets_takeAll (entries : List (Option Record)) (loading : Loading)
    (place : Nat) (id : RecordId) :
    (loading.takeAll place entries).offsets[id]? =
      (((visible entries).findIdx? (holds id)).map
        (fun index => place + index * slotSize)).or loading.offsets[id]? := by
  induction entries generalizing loading place with
  | nil => rfl
  | cons entry entries ih =>
      have shift : ∀ found : Option Nat,
          found.map (fun index => place + slotSize + index * slotSize) =
            (found.map (· + 1)).map fun index => place + index * slotSize := by
        intro found
        rw [Option.map_map]
        congr 1
        funext index
        simp only [Function.comp, Nat.succ_mul]
        omega
      cases entry with
      | none =>
          rw [Loading.takeAll, ih, visible, List.findIdx?_cons, shift]
          rfl
      | some record =>
          rw [Loading.takeAll, ih, visible, List.findIdx?_cons, Loading.take,
            Std.TreeMap.getElem?_insert, shift]
          by_cases same : record.id = id
          · subst same
            by_cases again : record.id ∈ Roll.ids (live entries)
            · have known := again
              rw [← mem_ids_live_visible, ← findIdx?_isSome,
                Option.isSome_iff_exists] at known
              obtain ⟨index, found⟩ := known
              simp [again, found, holds]
            · have last := again
              rw [← mem_ids_live_visible, ← findIdx?_eq_none] at last
              simp [again, last, holds]
          · by_cases again : record.id ∈ Roll.ids (live entries) <;>
              simp [again, same, holds]

theorem exists_rows_of_readSlots {count : Nat} {bytes : List UInt8}
    (size : bytes.length / slotSize = count) {loading : Loading}
    {place : Nat}
    (reads : (readSlots loading place (slots count bytes)).2 = none) :
    ∃ held, Rows bytes held := by
  induction count generalizing bytes loading place with
  | zero =>
      have short : bytes.length < slotSize := by
        simp only [slotSize, StorageFault.slotSize] at size ⊢
        omega
      exact ⟨[], .nil short⟩
  | succ count ih =>
      have whole : (bytes.take slotSize).length = slotSize := by
        simp only [List.length_take, slotSize, StorageFault.slotSize]
          at size ⊢
        omega
      have rest : (bytes.drop slotSize).length / slotSize = count := by
        simp only [List.length_drop, slotSize, StorageFault.slotSize]
          at size ⊢
        omega
      have row : ∀ entry, decode (bytes.take slotSize) = .ok entry →
          (∃ held, Rows (bytes.drop slotSize) held) →
            ∃ held, Rows bytes held := by
        rintro entry holds ⟨held, rows⟩
        rw [← List.take_append_drop slotSize bytes]
        exact ⟨entry :: held, .cons whole holds rows⟩
      rw [slots, readSlots] at reads
      split at reads
      · cases reads
      · next holds => exact row none holds (ih rest reads)
      · next record holds => exact row (some record) holds (ih rest reads)

theorem exists_rows_of_load {file : RecordFile} {records : List Record}
    (loads : file.load.1 = .ok records) :
    ∃ held, Rows file.bytes.toList held := by
  simp only [load] at loads
  split at loads
  · cases loads
  · next reads =>
      exact exists_rows_of_readSlots (Array.length_toList ▸ rfl)
        (congrArg Prod.snd reads)

@[simp]
theorem bytes_load (file : RecordFile) : file.load.2.bytes = file.bytes := by
  rw [load]
  split <;> rfl

/-- The bytes of a file show the given entries, and the file knows it. -/
structure Charted (file : RecordFile) (entries : List (Option Record))
    (hidden : List Record) : Prop where
  shows : Shows file.bytes.toList entries hidden
  next : file.next = entries.length * slotSize
  known : ∀ id, file.offsets[id]? =
    (entries.findIdx? (holds id)).map (· * slotSize)
  distinct : (Roll.ids (live entries)).Nodup

theorem charted_load {file : RecordFile} {held : List (Option Record)}
    {hidden : List Record} (rows : Rows file.bytes.toList held)
    (hides : Hides held (visible held) hidden) :
    file.load.1 = .ok (live (visible held)) ∧
      file.load.2.Charted (visible held) hidden := by
  rw [load_of_rows rows]
  constructor
  · rw [records_takeAll]
    rfl
  · refine ⟨⟨held, rows, hides⟩, ?_, ?_, nodup_ids_live_visible held⟩
    · exact congrArg (· * slotSize) hides.length_eq
    · intro id
      rw [offsets_takeAll]
      simp

namespace Charted

variable {file : RecordFile} {entries : List (Option Record)}
  {hidden : List Record}

theorem slot_of_known (charted : file.Charted entries hidden)
    {id : RecordId} {place : Nat} (found : file.offsets[id]? = some place) :
    ∃ before slot behind,
      file.bytes.toList = before ++ (slot ++ behind) ∧
      before.length = place ∧ slot.length = slotSize ∧
      (∃ record, Roll.find? (live entries) id = some record ∧
        decode slot = .ok (some record)) ∧
      ∀ {other : List UInt8} {entry : Option Record},
        other.length = slotSize → decode other = .ok entry →
        Shows (before ++ (other ++ behind)) (exchange entries id entry)
          hidden := by
  rw [charted.known, Option.map_eq_some_iff] at found
  obtain ⟨index, first, rfl⟩ := found
  obtain ⟨inside, here, _⟩ := List.findIdx?_eq_some_iff_getElem.mp first
  obtain ⟨record, filed, own⟩ := (Option.any_eq_true _ _).mp here
  rw [beq_iff_eq] at own
  have entry : entries[index]? = some (some record) := by
    rw [List.getElem?_eq_getElem inside, filed]
  have listed : record ∈ live entries :=
    List.mem_filterMap.mpr ⟨_, List.mem_of_getElem? entry, rfl⟩
  obtain ⟨before, slot, behind, parted, place, whole, reads, exchanged⟩ :=
    charted.shows.focus entry
  refine ⟨before, slot, behind, parted, place, whole,
    ⟨record, own ▸ Roll.find?_of_mem charted.distinct listed, reads⟩, ?_⟩
  intro other entry otherWhole otherHolds
  rw [← set_eq_exchange charted.distinct first]
  exact exchanged otherWhole otherHolds

theorem mem_offsets (charted : file.Charted entries hidden)
    (id : RecordId) :
    (file.offsets[id]?).isSome ↔ id ∈ Roll.ids (live entries) := by
  rw [charted.known, Option.isSome_map, findIdx?_isSome]

theorem known_none (charted : file.Charted entries hidden) {id : RecordId}
    (unknown : file.offsets[id]? = none) :
    id ∉ Roll.ids (live entries) := by
  rw [← charted.mem_offsets, unknown]
  simp

/-- A slot written in the place of another leaves the file charted. -/
theorem written_over (charted : file.Charted entries hidden)
    {form : Record} {place : Nat}
    (found : file.offsets[form.id]? = some place)
    {slot : List UInt8} (whole : slot.length = slotSize)
    (holding : decode slot = .ok (some form)) :
    { file with bytes := overwrite place slot file.bytes }.Charted
      (exchange entries form.id (some form)) hidden := by
  obtain ⟨before, old, behind, parted, start, oldWhole, _, exchanged⟩ :=
    charted.slot_of_known found
  have present : form.id ∈ Roll.ids (live entries) := by
    rw [← charted.mem_offsets, found]
    rfl
  have bytes := toList_overwrite_behind slot parted start
  rw [List.drop_append_of_le_length (by omega), whole, ← oldWhole,
    List.drop_length, List.nil_append, List.append_assoc] at bytes
  refine ⟨bytes ▸ exchanged whole holding, ?_, ?_, ?_⟩
  · rw [charted.next, exchange, List.length_map]
  · intro id
    rw [charted.known, findIdx?_exchange_some]
  · rw [live_exchange_some entries present]
    exact Roll.nodup_ids_put _ form charted.distinct

/-- A slot written behind the others leaves the file charted. -/
theorem written_behind (charted : file.Charted entries hidden)
    {form : Record} (unknown : file.offsets[form.id]? = none)
    {slot : List UInt8} (whole : slot.length = slotSize)
    (holding : decode slot = .ok (some form)) :
    Charted
      { bytes := overwrite file.next slot file.bytes
        offsets := file.offsets.insert form.id file.next
        next := file.next + slotSize }
      (entries ++ [some form]) hidden := by
  obtain ⟨before, tail, parted, start, short, extended⟩ :=
    charted.shows.extend
  have bytes := toList_overwrite_behind slot parted
    (start.trans charted.next.symm)
  rw [List.drop_eq_nil_of_le (by omega), List.append_nil] at bytes
  have absent := charted.known_none unknown
  refine ⟨bytes ▸ extended whole holding, ?_, ?_, ?_⟩
  · rw [charted.next, List.length_append, List.length_singleton,
      Nat.succ_mul]
  · intro id
    rw [Std.TreeMap.getElem?_insert, List.findIdx?_append,
      charted.known, charted.next]
    by_cases same : form.id = id
    · subst same
      simp [(findIdx?_eq_none entries form.id).mpr absent, holds]
    · simp [same, holds]
  · have added := Roll.nodup_ids_put _ form charted.distinct
    rwa [Roll.put, if_neg absent, ← live_append] at added

/-- A slot made a tombstone leaves the file charted. -/
theorem buried (charted : file.Charted entries hidden) {id : RecordId}
    {place : Nat} (found : file.offsets[id]? = some place) :
    (file.tombstone id).1 = .ok () ∧
      (file.tombstone id).2.Charted (exchange entries id none) hidden := by
  obtain ⟨before, slot, behind, parted, start, whole, _, exchanged⟩ :=
    charted.slot_of_known found
  have marks : (file.bytes.extract place (place + 2)).toList =
      slot.take 2 := by
    rw [Array.toList_extract, parted, List.extract_eq_take_drop,
      Nat.add_sub_cancel_left, ← start, List.drop_left,
      List.take_append_of_le_length]
    rw [whole]
    decide
  have two : ¬(slot.take 2).length < 2 := by
    simp [whole, StorageFault.slotSize]
  have bytes := toList_overwrite_behind (RecordFile.buried (slot.take 2))
    parted start
  rw [length_buried, List.drop_append_of_le_length (by rw [whole]; decide),
    List.append_assoc, ← List.append_assoc (RecordFile.buried _)] at bytes
  have size : (RecordFile.buried (slot.take 2) ++ slot.drop 2).length =
      slotSize := by
    rw [List.length_append, length_buried, List.length_drop, whole]
    rfl
  simp only [tombstone, found, marks, if_neg two]
  refine ⟨trivial, ?_, ?_, ?_, ?_⟩
  · exact bytes ▸ exchanged size (decode_buried whole)
  · exact charted.next.trans (by rw [exchange, List.length_map])
  · intro other
    rw [findIdx?_exchange_none, Std.TreeMap.getElem?_erase]
    by_cases same : id = other
    · simp [same]
    · simpa [same] using charted.known other
  · rw [live_exchange_none]
    exact Roll.nodup_ids_strike _ id charted.distinct

end Charted

/-- The records in a file, in the order of their slots, without and with the
hidden ones. -/
def Keeps (file : RecordFile) (roll hidden : List Record) : Prop :=
  ∃ entries, file.Charted entries hidden ∧ live entries = roll

/-- The records in a file that hides none, in the order of their slots. -/
abbrev Files (file : RecordFile) (roll : List Record) : Prop :=
  file.Keeps roll []

theorem files_ofBytes_nil : (ofBytes []).Files [] := by
  refine ⟨[], ⟨⟨[], .nil (by decide), .nil⟩, rfl, ?_, List.nodup_nil⟩, rfl⟩
  intro id
  simp [ofBytes]

/-- What a file answers to a record that it is asked to write. -/
def reply (record : Record) : Except Fault Unit :=
  match encode record 0 with
  | .ok _ => .ok ()
  | .error fault => .error (.storage fault)

theorem fst_write (file : RecordFile) (record : Record) :
    (file.write record).1 = reply record := by
  simp only [write, reply]
  cases encode record 0 with
  | error fault => rfl
  | ok slot => cases file.offsets[record.id]? <;> rfl

/-- The record in the slot that is known for an id. -/
def filed? (file : RecordFile) (id : RecordId) : Option Record :=
  file.offsets[id]?.bind fun place =>
    match decode (bytesAt place slotSize file.bytes.toList) with
    | .ok entry => entry
    | .error _ => none

namespace Keeps

variable {file : RecordFile} {roll hidden : List Record}

theorem distinct (keeps : file.Keeps roll hidden) : (Roll.ids roll).Nodup := by
  obtain ⟨entries, charted, rfl⟩ := keeps
  exact charted.distinct

theorem mem_offsets (keeps : file.Keeps roll hidden) (id : RecordId) :
    (file.offsets[id]?).isSome ↔ id ∈ Roll.ids roll := by
  obtain ⟨entries, charted, rfl⟩ := keeps
  exact charted.mem_offsets id

theorem offsets_eq_none (keeps : file.Keeps roll hidden) {id : RecordId} :
    file.offsets[id]? = none ↔ id ∉ Roll.ids roll := by
  rw [← keeps.mem_offsets]
  simp

theorem contains_iff (keeps : file.Keeps roll hidden) (id : RecordId) :
    file.offsets.contains id = true ↔ id ∈ Roll.ids roll := by
  rw [← keeps.mem_offsets, Std.TreeMap.isSome_getElem?_eq_contains]

theorem filed?_eq (keeps : file.Keeps roll hidden) (id : RecordId) :
    file.filed? id = Roll.find? roll id := by
  cases found : file.offsets[id]? with
  | none =>
      have absent := keeps.offsets_eq_none.mp found
      rw [filed?, found, (Roll.find?_eq_none roll).mpr absent]
      rfl
  | some place =>
      obtain ⟨entries, charted, rfl⟩ := keeps
      obtain ⟨before, slot, behind, parted, start, whole,
        ⟨record, filed, reads⟩, _⟩ := charted.slot_of_known found
      have here : bytesAt place slotSize file.bytes.toList = slot := by
        rw [bytesAt, parted, ← start, List.drop_left, ← whole,
          List.take_left]
      simp only [filed?, found, Option.bind_some, here, reads, filed]

theorem write (keeps : file.Keeps roll hidden) {record form : Record}
    (result : stored? record = some form) :
    (file.write record).1 = .ok () ∧
      (file.write record).2.Keeps (Roll.put roll form) hidden := by
  obtain ⟨entries, charted, rfl⟩ := keeps
  obtain ⟨slot, encoded, whole, holding⟩ := decode_encode 0 result
  have holding : decode slot = .ok (some form) := holding
  have own := id_of_stored? result
  cases known : file.offsets[record.id]? with
  | some place =>
      simp only [RecordFile.write, encoded, known]
      rw [← own] at known
      have present : form.id ∈ Roll.ids (live entries) := by
        rw [← charted.mem_offsets, known]
        rfl
      exact ⟨trivial, _, charted.written_over known whole holding,
        live_exchange_some entries present⟩
  | none =>
      simp only [RecordFile.write, encoded, known]
      rw [← own] at known ⊢
      refine ⟨trivial, _, charted.written_behind known whole holding, ?_⟩
      rw [live_append, Roll.put, if_neg (charted.known_none known)]

theorem tombstone (keeps : file.Keeps roll hidden) {id : RecordId}
    (present : id ∈ Roll.ids roll) :
    (file.tombstone id).1 = .ok () ∧
      (file.tombstone id).2.Keeps (Roll.strike roll id) hidden := by
  obtain ⟨entries, charted, rfl⟩ := keeps
  rw [← charted.mem_offsets, Option.isSome_iff_exists] at present
  obtain ⟨place, found⟩ := present
  obtain ⟨outcome, after⟩ := charted.buried found
  exact ⟨outcome, _, after, live_exchange_none entries id⟩

theorem tombstone_absent (keeps : file.Keeps roll hidden) {id : RecordId}
    (absent : id ∉ Roll.ids roll) :
    file.tombstone id = (.error (.absent id), file) := by
  simp only [RecordFile.tombstone, keeps.offsets_eq_none.mpr absent]

end Keeps

/-- The slots hold the records of the roll and the hidden ones. -/
theorem Keeps.exists_rows {file : RecordFile} {roll hidden : List Record}
    (keeps : file.Keeps roll hidden) :
    ∃ held, Rows file.bytes.toList held ∧
      ∀ id, id ∈ Roll.ids (live held) ↔
        id ∈ Roll.ids roll ∨ id ∈ Roll.ids hidden := by
  obtain ⟨entries, charted, rfl⟩ := keeps
  obtain ⟨held, rows, hides⟩ := charted.shows
  exact ⟨held, rows, hides.mem_ids⟩

namespace Files

variable {file : RecordFile} {roll : List Record}

theorem visible_rows (files : file.Files roll) :
    ∃ held, Rows file.bytes.toList held ∧ Hides held (visible held) [] ∧
      live (visible held) = roll := by
  obtain ⟨entries, charted, rfl⟩ := files
  obtain ⟨held, rows, hides⟩ := charted.shows
  cases hides.eq_of_nil
  have all := visible_eq_self charted.distinct
  refine ⟨entries, rows, ?_, ?_⟩
  · rw [all]
    exact hides
  · rw [all]

/-- Whatever is known of the bytes, loading them gives the roll. -/
theorem loaded (files : file.Files roll) {other : RecordFile}
    (same : other.bytes = file.bytes) :
    other.load.1 = .ok roll ∧ other.load.2.Files roll := by
  obtain ⟨held, rows, hides, rfl⟩ := files.visible_rows
  rw [← same] at rows
  obtain ⟨outcome, charted⟩ := charted_load rows hides
  exact ⟨outcome, _, charted, rfl⟩

/-- Opening the file again and loading it gives the roll. -/
theorem load (files : file.Files roll) :
    ∃ loaded, (ofBytes file.bytes.toList).load = (.ok roll, loaded) ∧
      loaded.Files roll := by
  have same : (ofBytes file.bytes.toList).bytes = file.bytes :=
    Array.toArray_toList
  obtain ⟨outcome, loaded⟩ := files.loaded same
  exact ⟨_, Prod.ext outcome rfl, loaded⟩

end Files

end Cardfile.RecordFile
