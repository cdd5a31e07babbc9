import Mathlib.Data.List.Dedup
import Cardfile.Proofs.Filings

/-!
# The order of what is found

A lookup finds records in an order that has nothing to do with the list.  A
record that is kept anew, even under the same key, goes to the end of its
bucket.  So the ids that a run has kept records under, one after the other,
explain all three lookups: of these ids the last occurrences count, and of
those the live ones.
-/

namespace Cardfile

/-- The last occurrence of the latest id is the latest of all. -/
theorem dedup_concat (ids : List RecordId) (id : RecordId) :
    (ids ++ [id]).dedup = ids.dedup.filter (· != id) ++ [id] := by
  induction ids with
  | nil => simp
  | cons first ids ih =>
      rw [List.cons_append]
      by_cases again : first ∈ ids
      · have later : first ∈ ids ++ [id] := List.mem_append_left _ again
        rw [List.dedup_cons_of_mem later, List.dedup_cons_of_mem again, ih]
      · rw [List.dedup_cons_of_notMem again]
        by_cases same : first = id
        · have later : first ∈ ids ++ [id] := by simp [same]
          rw [List.dedup_cons_of_mem later, ih,
            List.filter_cons_of_neg (by simp [same])]
        · have last : first ∉ ids ++ [id] := by simp [again, same]
          rw [List.dedup_cons_of_notMem last, ih,
            List.filter_cons_of_pos (by simp [same]), List.cons_append]

namespace Lookup

variable {κ : Type} [Ord κ] [DecidableEq κ]

/-- Every bucket has its ids in the order of their last occurrences in a
log. -/
def Follows (lookup : Lookup κ) (keyOf : Record → κ)
    (kept : Std.TreeMap RecordId Record) (log : List RecordId) : Prop :=
  ∀ key, lookup.find key =
    log.dedup.filter fun id => kept[id]?.any fun record => keyOf record = key

variable [Std.TransOrd κ] {lookup : Lookup κ} {keyOf : Record → κ}
  {kept : Std.TreeMap RecordId Record} {log : List RecordId}

theorem Follows.empty (keyOf : Record → κ) :
    (Lookup.empty : Lookup κ).Follows keyOf ∅ [] := by
  intro key
  simp

variable [Std.LawfulEqOrd κ]

theorem Follows.insert (follows : lookup.Follows keyOf kept log)
    {record : Record} (free : kept[record.id]? = none) :
    (lookup.insert (keyOf record) record.id).Follows keyOf
      (kept.insert record.id record) (log ++ [record.id]) := by
  intro key
  have others : (log.dedup.filter (· != record.id)).filter
      (fun id => (kept.insert record.id record)[id]?.any
        fun other => keyOf other = key) = lookup.find key := by
    rw [follows key, List.filter_filter]
    apply List.filter_congr
    intro id _
    by_cases same : record.id = id
    · simp [← same, free]
    · simp [Std.TreeMap.getElem?_insert, same, Ne.symm same]
  rw [dedup_concat, List.filter_append, others]
  by_cases wanted : keyOf record = key
  · have fresh : record.id ∉ lookup.find key := by
      simp [follows key, free]
    rw [wanted, find_insert_self, if_neg fresh]
    simp [wanted]
  · rw [find_insert_of_ne lookup record.id wanted]
    simp [wanted]

theorem Follows.remove (follows : lookup.Follows keyOf kept log)
    {record : Record} (present : kept[record.id]? = some record) :
    (lookup.remove (keyOf record) record.id).2.Follows keyOf
      (kept.erase record.id) log := by
  intro key
  by_cases wanted : keyOf record = key
  · rw [wanted, find_remove_self, follows key, List.filter_filter]
    apply List.filter_congr
    intro id _
    by_cases same : record.id = id
    · simp [same]
    · simp [Std.TreeMap.getElem?_erase, same, Ne.symm same]
  · rw [find_remove_of_ne lookup record.id wanted, follows key]
    apply List.filter_congr
    intro id _
    by_cases same : record.id = id
    · simp [← same, present, wanted]
    · simp [Std.TreeMap.getElem?_erase, same]

end Lookup

/-- The id under which a filing keeps a record. -/
def Filing.kept? : Filing → Option RecordId
  | .write record => some record.id
  | .bury _ => none

theorem Filing.filterMap_kept?_move (gone : Option RecordId)
    (record : Record) :
    (Filing.move gone record).filterMap Filing.kept? = [record.id] := by
  cases gone with
  | none => rfl
  | some old => rfl

namespace Cabinet

/-- The ids under which a run of changes keeps records, one after the
other. -/
def keptIds (cabinet : Cabinet) (changes : List Change) : List RecordId :=
  (trail after filings cabinet changes).filterMap Filing.kept?

/-- The live ids of a log, in the order of their last occurrences. -/
def latest (cabinet : Cabinet) (log : List RecordId) : List RecordId :=
  log.dedup.filter fun id => (cabinet.get? id).isSome

/-- All three lookups follow the same log. -/
structure Follows (cabinet : Cabinet) (log : List RecordId) : Prop where
  firstNames : cabinet.firstNames.Follows
    (fun record => nameKey record.firstName) cabinet.kept log
  lastNames : cabinet.lastNames.Follows
    (fun record => nameKey record.lastName) cabinet.kept log
  birthdays : cabinet.birthdays.Follows Record.dateOfBirth cabinet.kept log

namespace Follows

variable {cabinet : Cabinet} {log : List RecordId}

theorem empty (validator : Validator) (serial : Nat) :
    (Cabinet.empty validator serial).Follows [] :=
  ⟨.empty _, .empty _, .empty _⟩

theorem enter (follows : cabinet.Follows log) {record : Record}
    (free : cabinet.get? record.id = none) (order : List RecordId) :
    Follows
      { cabinet.index record with
        kept := cabinet.kept.insert record.id record
        order := order } (log ++ [record.id]) :=
  ⟨follows.firstNames.insert free, follows.lastNames.insert free,
    follows.birthdays.insert free⟩

theorem leave (follows : cabinet.Follows log) {record : Record}
    (present : cabinet.get? record.id = some record)
    (order : List RecordId) :
    Follows
      { cabinet.unindex record with
        kept := cabinet.kept.erase record.id
        order := order } log :=
  ⟨follows.firstNames.remove present, follows.lastNames.remove present,
    follows.birthdays.remove present⟩

theorem revised (follows : cabinet.Follows log) :
    cabinet.revised.Follows log :=
  ⟨follows.firstNames, follows.lastNames, follows.birthdays⟩

theorem discard (follows : cabinet.Follows log) {record : Record}
    (present : cabinet.get? record.id = some record) :
    (cabinet.discard record).Follows log :=
  follows.leave present _

theorem place (follows : cabinet.Follows log)
    (consistent : cabinet.Consistent) (record : Record) :
    (cabinet.place record).Follows (log ++ [record.id]) := by
  cases present : cabinet.get? record.id with
  | none =>
      simp only [Cabinet.place, present]
      exact follows.enter present _
  | some previous =>
      have same := consistent.ownId record.id previous present
      simp only [Cabinet.place, present]
      have left := follows.discard (consistent.get?_id present)
      apply left.enter
      rw [get?_discard, if_pos same]

theorem replace (follows : cabinet.Follows log)
    {previous record : Record}
    (present : cabinet.get? previous.id = some previous)
    (room : record.id = previous.id ∨ cabinet.get? record.id = none) :
    (cabinet.replace previous record).Follows (log ++ [record.id]) := by
  have left := follows.leave present cabinet.order
  apply left.enter
  simp only [get?_eq, Std.TreeMap.getElem?_erase, Std.compare_eq_iff_eq]
  rcases room with same | free
  · simp [same]
  · split
    · rfl
    · exact free

theorem merge (follows : cabinet.Follows log)
    (consistent : cabinet.Consistent) (record : Record) :
    (cabinet.merge record).Follows (log ++ [record.id]) := by
  simp only [Cabinet.merge]
  cases present : cabinet.get? record.id with
  | none => exact follows.place consistent record
  | some previous =>
      exact follows.replace (consistent.get?_id present)
        (.inl (consistent.ownId record.id previous present).symm)

theorem create (follows : cabinet.Follows log)
    (consistent : cabinet.Consistent) (record : Record) (freshId : Bool) :
    (cabinet.create record freshId).2.Follows
      (log ++ (cabinet.createFilings record freshId).filterMap
        Filing.kept?) := by
  rcases cabinet.create_cases record freshId with
    ⟨_, _, failed⟩ | ⟨_, entered⟩
  · simpa [createFilings, failed] using follows
  · simp only [createFilings, entered, Filing.filterMap_kept?_move]
    exact (follows.place consistent _).revised

theorem edit (follows : cabinet.Follows log)
    (consistent : cabinet.Consistent) (change : Record → Record)
    (id : RecordId) :
    (cabinet.edit id change).2.Follows
      (log ++ (cabinet.editFilings change id).filterMap Filing.kept?) := by
  rcases cabinet.edit_cases id change with
    ⟨absent, failed⟩ | ⟨previous, _, _, present, failed⟩ |
    ⟨previous, present, _, room, edited⟩
  · simpa [editFilings, absent, failed] using follows
  · simpa [editFilings, present, failed] using follows
  · simp only [editFilings, present, edited, Filing.filterMap_kept?_move]
    have own := consistent.ownId id previous present
    exact (follows.replace (consistent.get?_id present)
      (own ▸ room)).revised

theorem delete (follows : cabinet.Follows log)
    (consistent : cabinet.Consistent) (id : RecordId) :
    (cabinet.delete id).2.Follows
      (log ++ (cabinet.deleteFilings id).filterMap Filing.kept?) := by
  rcases cabinet.delete_cases id with
    ⟨_, failed⟩ | ⟨record, present, deleted⟩
  · simpa [deleteFilings, failed] using follows
  · simp only [deleteFilings, deleted]
    rw [List.filterMap_cons_none rfl, List.filterMap_nil, List.append_nil]
    exact (follows.discard (consistent.get?_id present)).revised

theorem foldl {step : Cabinet → α → Cabinet}
    {emit : Cabinet → α → List Filing}
    (consistently : ∀ cabinet item, cabinet.Consistent →
      (step cabinet item).Consistent)
    (follow : ∀ cabinet item log, cabinet.Consistent → cabinet.Follows log →
      (step cabinet item).Follows
        (log ++ (emit cabinet item).filterMap Filing.kept?))
    (consistent : cabinet.Consistent) (follows : cabinet.Follows log)
    (items : List α) :
    (items.foldl step cabinet).Follows
      (log ++ (trail step emit cabinet items).filterMap Filing.kept?) := by
  induction items generalizing cabinet log with
  | nil => simpa [trail] using follows
  | cons item items ih =>
      have next := ih (consistently cabinet item consistent)
        (follow cabinet item log consistent follows)
      rw [trail, List.filterMap_append, ← List.append_assoc]
      exact next

theorem restore (follows : cabinet.Follows log)
    (consistent : cabinet.Consistent) (records : List Record) :
    (cabinet.restore records).2.Follows
      (log ++ (records.map Filing.write).filterMap Filing.kept?) := by
  have merged : (records.foldl Cabinet.merge cabinet).Follows
      (log ++ (records.map Filing.write).filterMap Filing.kept?) := by
    rw [← trail_single Cabinet.merge]
    apply foldl _ _ consistent follows
    · intro cabinet record consistent
      exact consistent.merge record
    · intro cabinet record log consistent follows
      exact follows.merge consistent record
  rw [restore_snd]
  split
  · next none =>
      rw [List.isEmpty_iff] at none
      simpa [none] using merged
  · exact merged.revised

theorem after (follows : cabinet.Follows log)
    (consistent : cabinet.Consistent) (change : Change) :
    (cabinet.after change).Follows
      (log ++ (cabinet.filings change).filterMap Filing.kept?) := by
  cases change with
  | create record freshId => exact follows.create consistent record freshId
  | edit id change => exact follows.edit consistent change id
  | delete id => exact follows.delete consistent id
  | updateWhere test change =>
      simp only [Cabinet.after, updateWhere_snd]
      apply foldl _ _ consistent follows
      · intro cabinet id consistent
        exact consistent.edit id change
      · intro cabinet id log consistent follows
        exact follows.edit consistent change id
  | deleteWhere test =>
      apply foldl _ _ consistent follows
      · intro cabinet id consistent
        exact consistent.delete id
      · intro cabinet id log consistent follows
        exact follows.delete consistent id
  | restore records => exact follows.restore consistent records

end Follows

theorem follows_of_changes (validator : Validator) (serial : Nat)
    (changes : List Change) :
    (changes.foldl after (empty validator serial)).Follows
      ((empty validator serial).keptIds changes) := by
  have start := Follows.empty validator serial
  apply Follows.foldl _ _ (.empty validator serial) start
  · intro cabinet change consistent
    exact consistent.after change
  · intro cabinet change log consistent follows
    exact follows.after consistent change

/-- A bucket of live ids in the order of a log leads to the records with its
key in the same order. -/
theorem resolve_find {κ : Type} [Ord κ] [DecidableEq κ] {cabinet : Cabinet}
    {lookup : Lookup κ} {keyOf : Record → κ} {log : List RecordId}
    (follows : lookup.Follows keyOf cabinet.kept log) (key : κ) :
    cabinet.resolve (lookup.find key) =
      (cabinet.resolve (cabinet.latest log)).filter
        fun record => keyOf record = key := by
  rw [follows key, latest]
  simp only [resolve]
  induction log.dedup with
  | nil => rfl
  | cons id ids ih =>
      cases present : cabinet.get? id with
      | none =>
          have absent : cabinet.kept[id]? = none := present
          simp [present, absent, ih]
      | some record =>
          have found : cabinet.kept[id]? = some record := present
          by_cases wanted : keyOf record = key
          · simp [present, found, wanted, ih]
          · simp [present, found, wanted, ih]

theorem Consistent.mem_latest {cabinet : Cabinet} {log : List RecordId}
    (consistent : cabinet.Consistent) (follows : cabinet.Follows log)
    (id : RecordId) :
    id ∈ cabinet.latest log ↔ (cabinet.get? id).isSome := by
  rw [latest, List.mem_filter]
  constructor
  · exact And.right
  · intro live
    refine ⟨?_, live⟩
    obtain ⟨record, present⟩ := Option.isSome_iff_exists.mp live
    have found : id ∈ cabinet.birthdays.find record.dateOfBirth :=
      (consistent.indexed.birthdays.mem_find _ id).mpr ⟨record, present, rfl⟩
    rw [follows.birthdays record.dateOfBirth] at found
    exact (List.mem_filter.mp found).1

/-- One order explains what is found by each of the three lookups: that in
which the live ids were last kept, be it by a creation, an edit or a
restoration. -/
theorem found_in_latest_order (validator : Validator) (serial : Nat)
    (changes : List Change) :
    let cabinet := changes.foldl after (empty validator serial)
    let latest :=
      cabinet.latest ((empty validator serial).keptIds changes)
    latest.Nodup ∧ (∀ id, id ∈ latest ↔ (cabinet.get? id).isSome) ∧
    (∀ name, cabinet.findByFirstName name =
      (latest.filterMap cabinet.get?).filter fun record =>
        Text.lowerCase record.firstName = Text.lowerCase name) ∧
    (∀ name, cabinet.findByLastName name =
      (latest.filterMap cabinet.get?).filter fun record =>
        Text.lowerCase record.lastName = Text.lowerCase name) ∧
    ∀ day, cabinet.findByDateOfBirth day =
      (latest.filterMap cabinet.get?).filter
        fun record => record.dateOfBirth = day := by
  intro cabinet latest
  have consistent : cabinet.Consistent :=
    (Consistent.empty validator serial).foldl_after changes
  have follows := follows_of_changes validator serial changes
  refine ⟨?_, ?_, ?_, ?_, ?_⟩
  · exact (List.nodup_dedup _).filter _
  · exact consistent.mem_latest follows
  · intro name
    exact resolve_find follows.firstNames (nameKey name)
  · intro name
    exact resolve_find follows.lastNames (nameKey name)
  · intro day
    exact resolve_find follows.birthdays day

/-- An edit that changes nothing leaves the list as it is, but not the order
in which the record is found. -/
example :
    let cabinet :=
      [Change.create { id := 1, lastName := "Lee" } false,
        .create { id := 2, lastName := "lee" } false,
        .edit 1 id].foldl after (empty (fun _ => none) 0)
    cabinet.order = [1, 2] ∧
      (cabinet.findByLastName "LEE").map Record.id = [2, 1] := by
  decide +kernel

end Cabinet

end Cardfile
