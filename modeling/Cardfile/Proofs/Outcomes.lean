import Cardfile.Proofs.Missed

/-!
# Outcomes of a file that falls behind

A file that has nothing to bury says that there is no such record.  This is
what a creation, an edit or a deletion answers that gives up a missed id, and
a batch does not count such an edit.  All other outcomes are true.
-/

namespace Cardfile

open Storage

theorem RecordFile.reply_ne_absent (record : Record) (id : RecordId) :
    reply record ≠ .error (.absent id) := by
  simp only [reply]
  cases encode record 0 <;> simp

namespace FiledCabinet

theorem counts_reply (record : Record) :
    counts (RecordFile.reply record) = true := by
  simp only [RecordFile.reply]
  cases encode record 0 <;> rfl

variable {filed : FiledCabinet} {roll hidden : List Record}

namespace Tracked

theorem create_absent_iff (tracked : filed.Tracked roll hidden)
    (record : Record) (freshId : Bool) (id : RecordId) :
    (filed.create record freshId).1 = .error (.absent id) ↔
      id ∈ filed.missed (.create record freshId) := by
  simp only [missed, Cabinet.filings]
  rcases create_cases tracked.consistent record freshId with
    ⟨_, _, refused, failed⟩ | ⟨gone, kept, after, commits, _, filings, moved⟩
  · simp [Cabinet.createFilings, refused, failed]
  · rw [filings, moved]
    rcases move_cases tracked.keeps commits.get?_self gone with
      ⟨old, _, _, missing, stopped⟩ | ⟨missing, answered, _⟩
    · simp [missing, stopped, Except.map, eq_comm]
    · rw [missing, answered]
      constructor
      · intro absent
        cases answer : RecordFile.reply kept with
        | ok => simp [answer, Except.map] at absent
        | error fault =>
            rw [answer] at absent
            cases absent
            exact absurd answer (RecordFile.reply_ne_absent kept id)
      · intro member
        cases member

theorem edit_absent_iff (tracked : filed.Tracked roll hidden)
    (id : RecordId) (change : Record → Record) (other : RecordId) :
    (filed.edit id change).1 = .error (.absent other) ↔
      id = other ∧ id ∉ filed.cabinet.order ∨
        other ∈ filed.missed (.edit id change) := by
  simp only [missed, Cabinet.filings, tracked.consistent.not_mem_order]
  rcases edit_cases tracked.consistent id change with
    ⟨absent, _, failed⟩ | ⟨_, _, _, present, refused, failed⟩ |
    ⟨previous, after, present, commits, _, filings, moved⟩
  · simp [Cabinet.editFilings, absent, failed]
  · simp [Cabinet.editFilings, present, refused, failed]
  · rw [filings, moved, present]
    rcases move_cases tracked.keeps commits.get?_self
        (Cabinet.renamed? id (change previous)) with
      ⟨old, _, _, missing, stopped⟩ | ⟨missing, answered, _⟩
    · simp [missing, stopped, eq_comm]
    · rw [missing, answered]
      simp [RecordFile.reply_ne_absent]

theorem delete_absent_iff (tracked : filed.Tracked roll hidden)
    (id other : RecordId) :
    (filed.delete id).1 = .error (.absent other) ↔
      id = other ∧ id ∉ filed.cabinet.order ∨
        other ∈ filed.missed (.delete id) := by
  simp only [missed, Cabinet.filings, tracked.consistent.not_mem_order]
  rcases filed.delete_cases id with
    ⟨absent, filings, failed⟩ | ⟨record, present, filings, buried⟩
  · simp [filings, failed, absent]
  · rw [filings, buried, present]
    by_cases listed : id ∈ Roll.ids roll
    · have known := (tracked.keeps.contains_iff id).mpr listed
      have missing : [Filing.bury id].filterMap
          (Filing.missing? filed.file) = [] :=
        List.filterMap_cons_none (if_pos known)
      obtain ⟨outcome, _⟩ := tracked.keeps.tombstone listed
      simp [bury, outcome, missing]
    · have unknown := mt (tracked.keeps.contains_iff id).mp listed
      have missing : [Filing.bury id].filterMap
          (Filing.missing? filed.file) = [id] :=
        List.filterMap_cons_some (if_neg unknown)
      simp [bury, tracked.keeps.tombstone_absent listed, missing, eq_comm]

end Tracked

end FiledCabinet

theorem fst_foldl {step : Nat × σ → α → Nat × σ} {next : σ → α → σ}
    {gain : σ → α → List β}
    (follows : ∀ count state item, step (count, state) item =
      (count + (gain state item).length, next state item))
    (items : List α) (count : Nat) (state : σ) :
    (items.foldl step (count, state)).1 =
      count + (trail next gain state items).length := by
  induction items generalizing count state with
  | nil => rfl
  | cons item items ih =>
      rw [List.foldl_cons, follows, ih, trail, List.length_append,
        Nat.add_assoc]

namespace Cabinet

/-- The id of an edit that is carried out. -/
def edited (change : Record → Record) (cabinet : Cabinet) (id : RecordId) :
    List RecordId :=
  match (cabinet.edit id change).1 with
  | .ok () => [id]
  | .error _ => []

theorem updateWhere_fst (cabinet : Cabinet) (test : Record → Bool)
    (change : Record → Record) :
    (cabinet.updateWhere test change).1 =
      (trail (fun cabinet id => (cabinet.edit id change).2) (edited change)
        cabinet (cabinet.matching test)).length := by
  rw [← Nat.zero_add (List.length _)]
  apply fst_foldl
  intro count start id
  simp only [edited]
  rcases start.edit id change with ⟨outcome, next⟩
  cases outcome <;> rfl

theorem revision_edit (cabinet : Cabinet) (id : RecordId)
    (change : Record → Record) :
    (cabinet.edit id change).2.revision =
      cabinet.revision + (edited change cabinet id).length := by
  simp only [edited]
  rcases cabinet.edit_cases id change with
    ⟨_, failed⟩ | ⟨_, _, _, _, failed⟩ | ⟨previous, _, _, _, edited⟩
  · rw [failed]
    rfl
  · rw [failed]
    rfl
  · rw [edited]
    rfl

theorem revision_updateWhere (cabinet : Cabinet) (test : Record → Bool)
    (change : Record → Record) :
    (cabinet.updateWhere test change).2.revision =
      cabinet.revision + (cabinet.updateWhere test change).1 := by
  rw [updateWhere_fst, updateWhere_snd]
  generalize cabinet.matching test = ids
  induction ids generalizing cabinet with
  | nil => rfl
  | cons id ids ih =>
      rw [List.foldl_cons, ih, revision_edit, trail, List.length_append,
        Nat.add_assoc]

end Cabinet

namespace FiledCabinet

variable {filed : FiledCabinet} {roll hidden : List Record}

/-- The id of an edit that a batch counts. -/
def counted (change : Record → Record) (filed : FiledCabinet)
    (id : RecordId) : List RecordId :=
  if counts (filed.edit id change).1 then [id] else []

theorem updateWhere_fst (filed : FiledCabinet) (test : Record → Bool)
    (change : Record → Record) :
    (filed.updateWhere test change).1 =
      (trail (fun filed id => (filed.edit id change).2) (counted change)
        filed (filed.matching test)).length := by
  rw [← Nat.zero_add (List.length _)]
  apply fst_foldl
  intro count start id
  simp only [counted]
  split <;> rfl

namespace Tracked

/-- A batch counts an edit that is carried out, unless its record is missed. -/
theorem counted_add_missing (tracked : filed.Tracked roll hidden)
    (id : RecordId) (change : Record → Record) :
    (counted change filed id).length +
        ((filed.cabinet.editFilings change id).filterMap
          (Filing.missing? filed.file)).length =
      (Cabinet.edited change filed.cabinet id).length := by
  simp only [counted, Cabinet.edited]
  rcases edit_cases tracked.consistent id change with
    ⟨absent, refused, failed⟩ | ⟨_, _, _, present, refused, failed⟩ |
    ⟨previous, after, _, commits, edited, filings, moved⟩
  · simp [Cabinet.editFilings, absent, refused, failed, counts]
  · simp [Cabinet.editFilings, present, refused, failed, counts]
  · rw [filings, moved, edited]
    rcases move_cases tracked.keeps commits.get?_self
        (Cabinet.renamed? id (change previous)) with
      ⟨old, _, _, missing, stopped⟩ | ⟨missing, answered, _⟩
    · simp [missing, stopped, counts]
    · simp [missing, answered, counts_reply]

/-- An edit looks for no slot but that of its own id. -/
theorem missing_edit_congr (tracked : filed.Tracked roll hidden)
    {file : RecordFile} {id : RecordId}
    (same : filed.file.offsets.contains id = file.offsets.contains id)
    (change : Record → Record) :
    (filed.cabinet.editFilings change id).filterMap
        (Filing.missing? filed.file) =
      (filed.cabinet.editFilings change id).filterMap
        (Filing.missing? file) := by
  rcases edit_cases tracked.consistent id change with
    ⟨absent, _, _⟩ | ⟨_, _, _, present, refused, _⟩ |
    ⟨previous, _, _, _, _, filings, _⟩
  · simp [Cabinet.editFilings, absent]
  · simp [Cabinet.editFilings, present, refused]
  · rw [filings, Filing.missing_move, Filing.missing_move,
      Cabinet.renamed?]
    split
    · simp [Option.filter, same]
    · rfl

/-- Other records stay live over an edit, and their slots where they are. -/
theorem edit_apart (tracked : filed.Tracked roll hidden)
    {id other : RecordId} (different : id ≠ other)
    (live : (filed.cabinet.get? other).isSome) (change : Record → Record) :
    ((filed.edit id change).2.cabinet.get? other).isSome ∧
      (filed.edit id change).2.file.offsets.contains other =
        filed.file.offsets.contains other := by
  rcases edit_cases tracked.consistent id change with
    ⟨_, _, failed⟩ | ⟨_, _, _, _, _, failed⟩ |
    ⟨previous, after, _, commits, _, _, moved⟩
  · rw [failed]
    exact ⟨live, rfl⟩
  · rw [failed]
    exact ⟨live, rfl⟩
  · have given : Cabinet.renamed? id (change previous) ≠ some other := by
      simp [Cabinet.renamed?, different]
    have apart : (change previous).id ≠ other := by
      rintro rfl
      have room := commits.room id (by
        simp [Cabinet.renamed?, Ne.symm different])
      rcases room with same | free
      · exact different same
      · simp [free] at live
    rw [moved, cabinet_buryAndFollow, commits.get?, if_neg apart,
      if_neg given]
    refine ⟨live, ?_⟩
    rcases move_cases tracked.keeps commits.get?_self
        (Cabinet.renamed? id (change previous)) with
      ⟨_, _, _, _, stopped⟩ | ⟨_, _, keeps⟩
    · rw [stopped]
    · rw [Bool.eq_iff_iff, keeps.contains_iff, tracked.keeps.contains_iff,
        ← Roll.find?_isSome, Roll.find?_move_of_ne roll _ apart,
        if_neg given, Roll.find?_isSome]

/-- In a row of edits every one meets its record as the row found it. -/
theorem counted_add_missing_trail (tracked : filed.Tracked roll hidden)
    (change : Record → Record) {file : RecordFile} {ids : List RecordId}
    (distinct : ids.Nodup)
    (live : ∀ id ∈ ids, (filed.cabinet.get? id).isSome)
    (same : ∀ id ∈ ids,
      filed.file.offsets.contains id = file.offsets.contains id) :
    (trail (fun filed id => (filed.edit id change).2) (counted change)
          filed ids).length +
        ((trail (fun cabinet id => (cabinet.edit id change).2)
          (Cabinet.editFilings change) filed.cabinet ids).filterMap
            (Filing.missing? file)).length =
      (trail (fun cabinet id => (cabinet.edit id change).2)
        (Cabinet.edited change) filed.cabinet ids).length := by
  induction ids generalizing filed roll with
  | nil => rfl
  | cons id ids ih =>
      obtain ⟨fresh, distinct⟩ := List.nodup_cons.mp distinct
      obtain ⟨_, next⟩ := tracked.edit id change
      have apart : ∀ other ∈ ids, id ≠ other :=
        fun other member => (ne_of_mem_of_not_mem member fresh).symm
      -- the first edit finds the file as it is, and the others find their
      -- records and slots where the row found them
      have first := tracked.counted_add_missing id change
      rw [tracked.missing_edit_congr (same id List.mem_cons_self)] at first
      have rest := ih next distinct
        (fun other member => (tracked.edit_apart (apart other member)
          (live other (List.mem_cons_of_mem _ member)) change).1)
        (fun other member => (tracked.edit_apart (apart other member)
          (live other (List.mem_cons_of_mem _ member)) change).2.trans
            (same other (List.mem_cons_of_mem _ member)))
      rw [cabinet_edit] at rest
      simp only [trail, List.filterMap_append, List.length_append]
      omega

/-- A batch counts the records that were changed, but for those missed. -/
theorem updateWhere_count (tracked : filed.Tracked roll hidden)
    (test : Record → Bool) (change : Record → Record) :
    (filed.updateWhere test change).1 +
        (filed.missed (.updateWhere test change)).length =
      (filed.cabinet.updateWhere test change).1 := by
  rw [updateWhere_fst, Cabinet.updateWhere_fst, matching_eq
    tracked.consistent]
  apply tracked.counted_add_missing_trail change
  · exact tracked.consistent.listedOnce.filter _
  · intro id member
    exact (tracked.consistent.mem_order id).mp (List.mem_filter.mp member).1
  · exact fun _ _ => rfl

end Tracked

/-- Outcomes are true, but for the ids that a change gives up and that the
file has no slot for.  These are said to be absent although they are live, and
a batch does not count them although their records are changed. -/
theorem outcomes_of_reachable {filed : FiledCabinet}
    (reachable : filed.Reachable) :
    (filed.Reached → ∀ change, filed.missed change = []) ∧
    (∀ change id, id ∈ filed.missed change → id ∈ filed.cabinet.order) ∧
    (∀ record freshId id,
      (filed.create record freshId).1 = .error (.absent id) ↔
        id ∈ filed.missed (.create record freshId)) ∧
    (∀ id change other,
      (filed.edit id change).1 = .error (.absent other) ↔
        id = other ∧ id ∉ filed.cabinet.order ∨
          other ∈ filed.missed (.edit id change)) ∧
    (∀ id other,
      (filed.delete id).1 = .error (.absent other) ↔
        id = other ∧ id ∉ filed.cabinet.order ∨
          other ∈ filed.missed (.delete id)) ∧
    (∀ test change,
      (filed.updateWhere test change).2.cabinet.revision =
        filed.cabinet.revision + (filed.cabinet.updateWhere test change).1 ∧
      (filed.updateWhere test change).1 +
          (filed.missed (.updateWhere test change)).length =
        (filed.cabinet.updateWhere test change).1) := by
  obtain ⟨roll, tracked⟩ := reachable.tracked
  refine ⟨?_, ?_, tracked.create_absent_iff, tracked.edit_absent_iff,
    tracked.delete_absent_iff, ?_⟩
  · intro reached change
    obtain ⟨_, mirrored⟩ := reached.mirrored
    exact mirrored.missed_eq_nil change
  · intro change id member
    exact tracked.consistent.listed_of_bury_mem (mem_missed_iff.mp member).1
  · intro test change
    refine ⟨?_, tracked.updateWhere_count test change⟩
    have same := cabinet_after tracked.consistent (.updateWhere test change)
    simp only [after, Cabinet.after] at same
    rw [same, Cabinet.revision_updateWhere]

/-- The record is live, and its edit is said to be of an absent one. -/
theorem unwritten_record_told_absent :
    fallenBehind.Reachable ∧ 1 ∈ fallenBehind.cabinet.order ∧
    (fallenBehind.edit 1 fun record => { record with id := 2 }).1 =
      .error (.absent 1) := by
  refine ⟨reachable_fallenBehind, by decide, ?_⟩
  obtain ⟨_, _, _, edits, _⟩ := outcomes_of_reachable reachable_fallenBehind
  rw [edits]
  right
  decide

/-- So are its replacement and its deletion, and a batch does not count it. -/
theorem unwritten_record_missed :
    fallenBehind.Reachable ∧ fallenBehind.cabinet.order = [1] ∧
    (fallenBehind.create { id := 1 } false).1 = .error (.absent 1) ∧
    (fallenBehind.edit 1 fun record => { record with id := 2 }).1 =
      .error (.absent 1) ∧
    (fallenBehind.delete 1).1 = .error (.absent 1) ∧
    (fallenBehind.updateWhere (fun _ => true)
      fun record => { record with id := 2 }).1 = 0 ∧
    (fallenBehind.cabinet.updateWhere (fun _ => true)
      fun record => { record with id := 2 }).1 = 1 :=
  ⟨reachable_fallenBehind, rfl, rfl, rfl, rfl, rfl, rfl⟩

end FiledCabinet

end Cardfile
