import Cardfile.Proofs.Roster

/-!
# Restoring snapshots

A snapshot is merged into the list by ids: an id that is listed keeps its
place, and a new one goes to the end.  Taken record by record this is a matter
of single steps; the closed form of the whole says that of several records
with one id the last counts, and that the new ids stand in the order in which
the snapshot first names them.
-/

namespace Cardfile

namespace Storage.Roll

/-- The last record with an id. -/
def last? (roll : List Record) (id : RecordId) : Option Record :=
  find? roll.reverse id

/-- The ids of a snapshot that a roll has not got, each where it first
occurs. -/
def newIds (roll snapshot : List Record) : List RecordId :=
  ((ids snapshot).filter fun id => !(ids roll).contains id).eraseDups

variable (roll snapshot : List Record)

theorem last?_cons (record : Record) (id : RecordId) :
    last? (record :: roll) id =
      (last? roll id).or (if record.id = id then some record else none) := by
  have single : find? [record] id =
      if record.id = id then some record else none := find?_cons [] record id
  rw [last?, List.reverse_cons, find?, List.find?_append, ← find?, ← find?,
    single, last?]

theorem id_of_find? {roll : List Record} {id : RecordId} {record : Record}
    (found : find? roll id = some record) : record.id = id := by
  simpa using List.find?_some found

theorem last?_eq_find? {roll : List Record} (distinct : (ids roll).Nodup)
    (id : RecordId) : last? roll id = find? roll id := by
  have turned : ids roll.reverse = (ids roll).reverse := List.map_reverse
  cases found : find? roll id with
  | none =>
      rw [find?_eq_none] at found
      rw [last?, find?_eq_none, turned, List.mem_reverse]
      exact found
  | some record =>
      obtain rfl := id_of_find? found
      apply find?_of_mem
      · rw [turned, List.nodup_reverse]
        exact distinct
      · exact List.mem_reverse.mpr (List.mem_of_find?_eq_some found)

theorem ids_foldl_put :
    ids (snapshot.foldl put roll) = ids roll ++ newIds roll snapshot := by
  induction snapshot generalizing roll with
  | nil => simp [ids, newIds]
  | cons record snapshot ih =>
      rw [List.foldl_cons, ih, newIds, newIds, ids_put]
      have front : ids (record :: snapshot) = record.id :: ids snapshot := rfl
      by_cases listed : record.id ∈ ids roll
      · simp [listed, front]
      · have apart : (ids snapshot).filter
            (fun id => !(ids roll ++ [record.id]).contains id) =
              ((ids snapshot).filter fun id =>
                !(ids roll).contains id).filter fun id =>
                  !id == record.id := by
          rw [List.filter_filter]
          apply List.filter_congr
          intro id _
          by_cases same : id = record.id <;> simp [same]
        rw [if_neg listed, apart, front,
          List.filter_cons_of_pos (by simpa using listed),
          List.eraseDups_cons, List.append_assoc]
        rfl

/-- The last record of the snapshot comes before what was there. -/
theorem find?_foldl_put (id : RecordId) :
    find? (snapshot.foldl put roll) id =
      (last? snapshot id).or (find? roll id) := by
  induction snapshot generalizing roll with
  | nil => rfl
  | cons record snapshot ih =>
      rw [List.foldl_cons, ih, find?_put, last?_cons, Option.or_assoc]
      by_cases same : record.id = id <;> simp [same]

theorem nodup_ids_foldl_put {roll : List Record}
    (distinct : (ids roll).Nodup) :
    (ids (snapshot.foldl put roll)).Nodup :=
  List.foldlRecOn snapshot put distinct
    fun merged kept record _ => nodup_ids_put merged record kept

theorem eq_of_find?_eq {left right : List Record}
    (distinct : (ids left).Nodup) (order : ids left = ids right)
    (kept : ∀ id, find? left id = find? right id) : left = right := by
  rw [← filterMap_find? left distinct, order, funext kept]
  exact filterMap_find? right (order ▸ distinct)

theorem eraseDups_of_nodup {ids : List RecordId} (distinct : ids.Nodup) :
    ids.eraseDups = ids := by
  induction ids with
  | nil => rfl
  | cons id ids ih =>
      obtain ⟨absent, distinct⟩ := List.nodup_cons.mp distinct
      have apart : ids.filter (fun other => !other == id) = ids :=
        List.filter_eq_self.mpr fun other member => by
          simpa using ne_of_mem_of_not_mem member absent
      rw [List.eraseDups_cons, apart, ih distinct]

theorem newIds_eq_nil {roll snapshot : List Record}
    (listed : ids snapshot ⊆ ids roll) : newIds roll snapshot = [] := by
  have nothing : (ids snapshot).filter
      (fun id => !(ids roll).contains id) = [] :=
    List.filter_eq_nil_iff.mpr fun id member => by simpa using listed member
  rw [newIds, nothing, List.eraseDups_nil]

theorem foldl_put_eq_self {roll snapshot : List Record}
    (distinct : (ids roll).Nodup)
    (told : ∀ id, (last? snapshot id).or (find? roll id) = find? roll id) :
    snapshot.foldl put roll = roll := by
  have listed : ids snapshot ⊆ ids roll := by
    intro id member
    have present : (last? snapshot id).isSome := by
      rw [last?, find?_isSome, ids, List.map_reverse, List.mem_reverse]
      exact member
    rw [← find?_isSome, ← told, Option.isSome_or, present, Bool.true_or]
  apply eq_of_find?_eq (nodup_ids_foldl_put snapshot distinct)
  · rw [ids_foldl_put, newIds_eq_nil listed, List.append_nil]
  · intro id
    rw [find?_foldl_put, told]

theorem foldl_put_again {roll : List Record} (distinct : (ids roll).Nodup) :
    snapshot.foldl put (snapshot.foldl put roll) =
      snapshot.foldl put roll := by
  apply foldl_put_eq_self (nodup_ids_foldl_put snapshot distinct)
  intro id
  rw [find?_foldl_put, ← Option.or_assoc, Option.or_self]

theorem foldl_put_self {roll : List Record} (distinct : (ids roll).Nodup) :
    roll.foldl put roll = roll := by
  apply foldl_put_eq_self distinct
  intro id
  rw [last?_eq_find? distinct, Option.or_self]

theorem foldl_put_nil {roll : List Record} (distinct : (ids roll).Nodup) :
    roll.foldl put [] = roll := by
  have everything : newIds [] roll = ids roll := by
    have all : (ids roll).filter
        (fun id => !(ids []).contains id) = ids roll :=
      List.filter_eq_self.mpr fun _ _ => rfl
    rw [newIds, all, eraseDups_of_nodup distinct]
  have order : ids (roll.foldl put []) = ids roll := by
    rw [ids_foldl_put, everything]
    rfl
  apply eq_of_find?_eq (order ▸ distinct) order
  intro id
  rw [find?_foldl_put, last?_eq_find? distinct]
  exact Option.or_none

end Storage.Roll

namespace Cabinet

open Storage

namespace Consistent

variable {cabinet : Cabinet}

theorem records_restore (consistent : cabinet.Consistent)
    (snapshot : List Record) :
    (cabinet.restore snapshot).2.records =
      snapshot.foldl Roll.put cabinet.records :=
  congrArg (fun answer => answer.2.records)
    (consistent.restore_roster snapshot)

/-- Position by position, a restored list has the last record that the
snapshot has for the id that stands there, or else the one that was kept. -/
theorem map_some_records_restore (consistent : cabinet.Consistent)
    (snapshot : List Record) :
    (cabinet.restore snapshot).2.records.map some =
      (cabinet.order ++ Roll.newIds cabinet.records snapshot).map fun id =>
        (Roll.last? snapshot id).or (cabinet.get? id) := by
  have distinct := Roll.nodup_ids_foldl_put snapshot
    consistent.nodup_ids_records
  rw [← consistent.ids_records, ← Roll.ids_foldl_put,
    consistent.records_restore, Roll.ids, List.map_map]
  apply List.map_congr_left
  intro record member
  rw [Function.comp_apply, ← consistent.find?_records, ← Roll.find?_foldl_put,
    Roll.find?_of_mem distinct member]

end Consistent

/-- Restoring a snapshot merges it by ids.  The ids that were listed stay
where they are, the new ones follow in the order in which the snapshot first
names them, and each id gets the last record that the snapshot has for it.  So
a snapshot has nothing to add when it is restored again, a cabinet is not
changed by its own records, and these make an empty cabinet list the same. -/
theorem restore_merges_last (validator : Validator) (serial : Nat)
    (changes : List Change) (snapshot : List Record) :
    let before := changes.foldl after (empty validator serial)
    let answer := before.restore snapshot
    (answer.1 = snapshot.length ∧
      answer.2.records.map Record.id =
        before.records.map Record.id ++
          ((snapshot.map Record.id).filter fun id =>
            !(before.records.map Record.id).contains id).eraseDups ∧
      answer.2.records.map some =
        (answer.2.records.map Record.id).map fun id =>
          (Roll.last? snapshot id).or (before.get? id)) ∧
    (answer.2.restore snapshot).2.records = answer.2.records ∧
    (before.restore before.records).2.records = before.records ∧
    ∀ (other : Validator) (number : Nat),
      ((empty other number).restore before.records).2.records =
        before.records := by
  intro before answer
  have consistent : before.Consistent :=
    (Consistent.empty validator serial).foldl_after changes
  have restored : answer.2.Consistent := consistent.after (.restore snapshot)
  have records : answer.2.records = snapshot.foldl Roll.put before.records :=
    consistent.records_restore snapshot
  have distinct := consistent.nodup_ids_records
  have order : answer.2.records.map Record.id =
      before.records.map Record.id ++ Roll.newIds before.records snapshot := by
    rw [records]
    exact Roll.ids_foldl_put before.records snapshot
  refine ⟨⟨rfl, order, ?_⟩, ?_, ?_, ?_⟩
  · rw [order, consistent.map_id_records]
    exact consistent.map_some_records_restore snapshot
  · rw [restored.records_restore, records, Roll.foldl_put_again _ distinct]
  · rw [consistent.records_restore, Roll.foldl_put_self distinct]
  · intro other number
    rw [(Consistent.empty other number).records_restore]
    exact Roll.foldl_put_nil distinct

/-- A new id that is repeated takes its place at once and its record later. -/
example :
    let cabinet :=
      [Change.create { id := 1, lastName := "Lee" } false,
        .create { id := 2, lastName := "Ray" } false].foldl after
          (empty (fun _ => none) 0)
    (cabinet.restore
        [{ id := 9 }, { id := 5 }, { id := 2, points := 3 },
          { id := 9, points := 7 }]).2.records =
      [{ id := 1, lastName := "Lee" }, { id := 2, points := 3 },
        { id := 9, points := 7 }, { id := 5 }] := by
  decide +kernel

end Cabinet

end Cardfile
