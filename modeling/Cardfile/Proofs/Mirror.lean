import Cardfile.Proofs.Moves

/-!
# The file as a mirror

A file mirrors a cabinet if its roll has, under every id, the stored form of
the record that the cabinet keeps there.  The changes of a filed cabinet keep
this so, and so does closing it and opening its file again.
-/

namespace Cardfile

open Storage

/-- The roll has the stored forms of the records that are kept. -/
def Agrees (kept : RecordId → Option Record) (roll : List Record) : Prop :=
  ∀ id, (kept id).map stored? = (Roll.find? roll id).map some

namespace Agrees

variable {kept keptAfter : RecordId → Option Record} {roll : List Record}

theorem put (agrees : Agrees kept roll) {record form : Record}
    (result : stored? record = some form)
    (after : ∀ id, keptAfter id =
      if record.id = id then some record else kept id) :
    Agrees keptAfter (Roll.put roll form) := by
  intro id
  rw [after, Roll.find?_put, id_of_stored? result]
  split
  · rw [Option.map_some, Option.map_some, result]
  · exact agrees id

theorem strike (agrees : Agrees kept roll) {old : RecordId}
    (after : ∀ id, keptAfter id = if old = id then none else kept id) :
    Agrees keptAfter (Roll.strike roll old) := by
  intro id
  rw [after, Roll.find?_strike]
  split
  · rfl
  · exact agrees id

/-- A record is kept, perhaps in exchange for another id. -/
theorem move (agrees : Agrees kept roll) {record : Record}
    {gone : Option RecordId} (encodes : Encodes record)
    (after : ∀ id, keptAfter id =
      if record.id = id then some record
      else if gone = some id then none else kept id) :
    Agrees keptAfter ((Filing.move gone record).foldl Roll.refile roll) := by
  obtain ⟨form, result⟩ := (encodes_iff record).mp encodes
  cases gone with
  | none =>
      rw [Roll.refile_move_none roll result]
      refine agrees.put result ?_
      intro id
      rw [after, if_neg (by simp : ¬none = some id)]
  | some old =>
      have struck : Agrees (fun id => if old = id then none else kept id)
          (Roll.strike roll old) := agrees.strike fun _ => rfl
      rw [Roll.refile_move_some roll old result]
      refine struck.put result ?_
      intro id
      simp only [after, Option.some.injEq]

theorem mem_ids (agrees : Agrees kept roll) (id : RecordId) :
    id ∈ Roll.ids roll ↔ (kept id).isSome := by
  have same := congrArg Option.isSome (agrees id)
  rw [Option.isSome_map, Option.isSome_map] at same
  rw [← Roll.find?_isSome, same]

theorem stored?_eq_self (agrees : Agrees kept roll) {id : RecordId}
    {form : Record} (found : Roll.find? roll id = some form) :
    stored? form = some form := by
  have same := agrees id
  rw [found, Option.map_some, Option.map_eq_some_iff] at same
  obtain ⟨record, _, result⟩ := same
  exact stored?_idem result

/-- Looking up the same ids gives records on one side and their stored forms
on the other. -/
theorem forall₂_filterMap (agrees : Agrees kept roll)
    (ids : List RecordId) :
    List.Forall₂ (fun record form => stored? record = some form)
      (ids.filterMap kept) (ids.filterMap (Roll.find? roll)) := by
  induction ids with
  | nil => exact .nil
  | cons id ids ih =>
      have same := agrees id
      cases found : Roll.find? roll id with
      | none =>
          rw [found, Option.map_none, Option.map_eq_none_iff] at same
          rwa [List.filterMap_cons_none same, List.filterMap_cons_none found]
      | some form =>
          rw [found, Option.map_some, Option.map_eq_some_iff] at same
          obtain ⟨record, live, result⟩ := same
          rw [List.filterMap_cons_some live, List.filterMap_cons_some found]
          exact .cons result ih

end Agrees

namespace FiledCabinet

/-- The file mirrors the cabinet: the cabinet is consistent, and the file has
the given roll, which agrees with it. -/
structure Mirrored (filed : FiledCabinet) (roll : List Record) : Prop where
  consistent : filed.cabinet.Consistent
  files : filed.file.Files roll
  agrees : Agrees filed.cabinet.get? roll

namespace Mirrored

variable {filed : FiledCabinet} {roll : List Record}

/-- The cabinet commits a record and the file follows. -/
theorem move (mirrored : filed.Mirrored roll) {after : Cabinet}
    {record : Record} {gone : Option RecordId}
    (commits : filed.cabinet.Commits gone record after)
    (encodes : Encodes record) :
    ({ filed with cabinet := after }.buryAndFollow gone
      record.id).2.Mirrored
      ((Filing.move gone record).foldl Roll.refile roll) := by
  have kept := cabinet_buryAndFollow { filed with cabinet := after }
    gone record.id
  rcases @buryAndFollow_cases ⟨after, filed.file⟩ roll [] mirrored.files
      record commits.get?_self gone with
    ⟨old, given, unlisted, _⟩ | ⟨_, _, files⟩
  · have live := commits.known old given
    rw [← mirrored.agrees.mem_ids] at live
    exact absurd live unlisted
  · refine ⟨kept ▸ commits.consistent, files, ?_⟩
    rw [kept]
    exact mirrored.agrees.move encodes commits.get?

theorem create (mirrored : filed.Mirrored roll) (record : Record)
    (freshId : Bool)
    (writable : Writable (filed.cabinet.createFilings record freshId)) :
    (filed.create record freshId).2.Mirrored
      ((filed.cabinet.createFilings record freshId).foldl Roll.refile
        roll) := by
  rcases create_cases mirrored.consistent record freshId with
    ⟨_, _, refused, failed⟩ | ⟨gone, kept, after, commits, _, filings, moved⟩
  · simp only [Cabinet.createFilings, refused, failed]
    exact mirrored
  · rw [filings] at writable ⊢
    rw [moved]
    exact mirrored.move commits (writable _ (Filing.write_mem_move _ _))

theorem edit (mirrored : filed.Mirrored roll) (id : RecordId)
    (change : Record → Record)
    (writable : Writable (filed.cabinet.editFilings change id)) :
    (filed.edit id change).2.Mirrored
      ((filed.cabinet.editFilings change id).foldl Roll.refile roll) := by
  rcases edit_cases mirrored.consistent id change with
    ⟨absent, _, failed⟩ | ⟨_, _, _, present, refused, failed⟩ |
    ⟨previous, after, _, commits, _, filings, moved⟩
  · simp only [Cabinet.editFilings, absent, failed]
    exact mirrored
  · simp only [Cabinet.editFilings, present, refused, failed]
    exact mirrored
  · rw [filings] at writable ⊢
    rw [moved]
    exact mirrored.move commits (writable _ (Filing.write_mem_move _ _))

theorem delete (mirrored : filed.Mirrored roll) (id : RecordId) :
    (filed.delete id).2.Mirrored
      ((filed.cabinet.deleteFilings id).foldl Roll.refile roll) := by
  rcases filed.delete_cases id with
    ⟨_, filings, failed⟩ | ⟨record, present, filings, buried⟩
  · rw [filings, failed]
    exact mirrored
  · have own := mirrored.consistent.ownId id record present
    have listed : id ∈ Roll.ids roll := by
      rw [mirrored.agrees.mem_ids, present]
      rfl
    rw [filings, buried]
    refine ⟨(mirrored.consistent.discard
      (mirrored.consistent.get?_id present)).revised,
      (mirrored.files.tombstone listed).2, ?_⟩
    refine mirrored.agrees.strike ?_
    intro other
    rw [cabinet_bury, Cabinet.get?_revised, Cabinet.get?_discard, own]

theorem foldl {step : FiledCabinet → α → FiledCabinet}
    {inner : Cabinet → α → Cabinet} {emit : Cabinet → α → List Filing}
    (follows : ∀ {filed : FiledCabinet}, filed.cabinet.Consistent →
      ∀ item, (step filed item).cabinet = inner filed.cabinet item)
    (keeps : ∀ {filed : FiledCabinet} {roll : List Record},
      filed.Mirrored roll → ∀ item, Writable (emit filed.cabinet item) →
      (step filed item).Mirrored
        ((emit filed.cabinet item).foldl Roll.refile roll))
    (mirrored : filed.Mirrored roll) (items : List α)
    (writable : Writable (trail inner emit filed.cabinet items)) :
    (items.foldl step filed).Mirrored
      ((trail inner emit filed.cabinet items).foldl Roll.refile roll) := by
  induction items generalizing filed roll with
  | nil => exact mirrored
  | cons item items ih =>
      obtain ⟨first, later⟩ := writable.append
      have next := follows mirrored.consistent item
      rw [← next] at later
      rw [List.foldl_cons, trail, List.foldl_append, ← next]
      exact ih (keeps mirrored item first) later

theorem takeOver (mirrored : filed.Mirrored roll) (record : Record)
    (encodes : Encodes record) :
    (filed.takeOver record).Mirrored (Roll.refile roll (.write record)) := by
  obtain ⟨form, result⟩ := (encodes_iff record).mp encodes
  rw [Roll.refile_write roll result]
  exact ⟨mirrored.consistent.merge record, (mirrored.files.write result).2,
    mirrored.agrees.put result (mirrored.consistent.get?_merge record)⟩

theorem restore (mirrored : filed.Mirrored roll) (records : List Record)
    (writable : Writable (records.map .write)) :
    (filed.restore records).2.Mirrored
      ((records.map Filing.write).foldl Roll.refile roll) := by
  rw [← trail_single Cabinet.merge Filing.write filed.cabinet records]
    at writable ⊢
  have single : ∀ {filed : FiledCabinet} {roll : List Record},
      filed.Mirrored roll → ∀ record, Writable [.write record] →
      (filed.takeOver record).Mirrored
        (List.foldl Roll.refile roll [.write record]) := by
    intro filed roll mirrored record writable
    exact mirrored.takeOver record (writable record List.mem_cons_self)
  have taken := mirrored.foldl (fun _ _ => rfl) single records writable
  refine ⟨mirrored.consistent.after (.restore records), ?_, ?_⟩
  · rw [file_restore]
    exact taken.files
  · intro id
    have kept : (records.foldl FiledCabinet.takeOver filed).cabinet =
        records.foldl Cabinet.merge filed.cabinet :=
      cabinet_foldl (fun _ _ => rfl) records filed
    have agrees := taken.agrees id
    rw [kept] at agrees
    rw [← agrees]
    exact congrArg (Option.map stored?)
      (filed.cabinet.get?_restore records id)

theorem after (mirrored : filed.Mirrored roll) (change : Change)
    (writable : Writable (filed.cabinet.filings change)) :
    (filed.after change).Mirrored
      ((filed.cabinet.filings change).foldl Roll.refile roll) := by
  cases change with
  | create record freshId => exact mirrored.create record freshId writable
  | edit id change => exact mirrored.edit id change writable
  | delete id => exact mirrored.delete id
  | updateWhere test change =>
      simp only [FiledCabinet.after, updateWhere_snd,
        matching_eq mirrored.consistent]
      exact mirrored.foldl (fun _ id => cabinet_edit _ id change)
        (fun mirrored id => mirrored.edit id change) _ writable
  | deleteWhere test =>
      simp only [FiledCabinet.after, deleteWhere,
        matching_eq mirrored.consistent]
      exact mirrored.foldl (fun _ id => cabinet_delete _ id)
        (fun mirrored id _ => mirrored.delete id) _ writable
  | restore records => exact mirrored.restore records writable

end Mirrored

end FiledCabinet

end Cardfile
