import Cardfile.Proofs.Reopening

/-!
# Cabinets in lock-step

Cabinets with the same contents may differ in their serial numbers and in the
shapes of their maps.  Neither can be seen in what a change does, so that
cabinets that take the same changes go on having the same contents, and a file
that follows one of them makes no difference.  Consistency is all that is asked
of the cabinets, and every run on an empty cabinet leaves it consistent.
-/

namespace Cardfile

namespace Lookup

variable {κ : Type} [Ord κ] [Std.TransOrd κ] {left right : Lookup κ}

theorem find_congr (same : left.buckets.Equiv right.buckets) (key : κ) :
    left.find key = right.find key :=
  same.getD_eq

theorem insert_congr (same : left.buckets.Equiv right.buckets) (key : κ)
    (id : RecordId) :
    (left.insert key id).buckets.Equiv (right.insert key id).buckets := by
  simp only [insert, find_congr same]
  exact same.insert key _

theorem remove_congr (same : left.buckets.Equiv right.buckets) (key : κ)
    (id : RecordId) :
    (left.remove key id).2.buckets.Equiv
      (right.remove key id).2.buckets := by
  simp only [remove, same.getElem?_eq]
  cases right.buckets[key]? with
  | none => exact same
  | some bucket =>
      simp only [rebucket]
      split
      · exact same.erase key
      · exact same.insert key _

end Lookup

namespace Cabinet

/-- Two cabinets have the same records, listed and looked up in the same order,
the same validator and the same revision. -/
structure SameContents (left right : Cabinet) : Prop where
  kept : left.kept.Equiv right.kept
  order : left.order = right.order
  firstNames : left.firstNames.buckets.Equiv right.firstNames.buckets
  lastNames : left.lastNames.buckets.Equiv right.lastNames.buckets
  birthdays : left.birthdays.buckets.Equiv right.birthdays.buckets
  validator : left.validator = right.validator
  revision : left.revision = right.revision

namespace SameContents

variable {left right : Cabinet}

theorem empty (validator : Validator) (serial number : Nat) :
    (Cabinet.empty validator serial).SameContents
      (.empty validator number) := by
  refine ⟨.rfl, rfl, .rfl, .rfl, .rfl, rfl, rfl⟩

theorem get? (same : left.SameContents right) :
    left.get? = right.get? := by
  funext id
  exact same.kept.getElem?_eq

theorem contains_kept (same : left.SameContents right) :
    left.kept.contains = right.kept.contains := by
  funext id
  exact same.kept.contains_eq

theorem resolve (same : left.SameContents right) (ids : List RecordId) :
    left.resolve ids = right.resolve ids := by
  rw [Cabinet.resolve, same.get?]
  rfl

theorem matching (same : left.SameContents right) (test : Record → Bool) :
    left.matching test = right.matching test := by
  rw [Cabinet.matching, same.get?, same.order]
  rfl

theorem validate (same : left.SameContents right) (record : Record) :
    left.validate record = right.validate record := by
  rw [Cabinet.validate, same.validator]
  rfl

theorem entrant (same : left.SameContents right) (record : Record)
    (freshId : Bool) :
    left.entrant record freshId = right.entrant record freshId := by
  have next : left.nextId = right.nextId := by
    rw [nextId, same.contains_kept, count, same.order]
    rfl
  rw [Cabinet.entrant, next]
  rfl

theorem index (same : left.SameContents right) (record : Record) :
    (left.index record).SameContents (right.index record) where
  kept := same.kept
  order := same.order
  firstNames := Lookup.insert_congr same.firstNames _ _
  lastNames := Lookup.insert_congr same.lastNames _ _
  birthdays := Lookup.insert_congr same.birthdays _ _
  validator := same.validator
  revision := same.revision

theorem unindex (same : left.SameContents right) (record : Record) :
    (left.unindex record).SameContents (right.unindex record) where
  kept := same.kept
  order := same.order
  firstNames := Lookup.remove_congr same.firstNames _ _
  lastNames := Lookup.remove_congr same.lastNames _ _
  birthdays := Lookup.remove_congr same.birthdays _ _
  validator := same.validator
  revision := same.revision

theorem relist (same : left.SameContents right)
    {leftKept rightKept : Std.TreeMap RecordId Record}
    (kept : leftKept.Equiv rightKept) {leftOrder rightOrder : List RecordId}
    (order : leftOrder = rightOrder) :
    { left with kept := leftKept, order := leftOrder }.SameContents
      { right with kept := rightKept, order := rightOrder } :=
  ⟨kept, order, same.firstNames, same.lastNames, same.birthdays,
    same.validator, same.revision⟩

theorem revised (same : left.SameContents right) :
    left.revised.SameContents right.revised :=
  ⟨same.kept, same.order, same.firstNames, same.lastNames, same.birthdays,
    same.validator, congrArg (· + 1) same.revision⟩

theorem discard (same : left.SameContents right) (record : Record) :
    (left.discard record).SameContents (right.discard record) := by
  apply (same.unindex record).relist
  · exact same.kept.erase record.id
  · exact congrArg (List.filter _) same.order

theorem place (same : left.SameContents right) (record : Record) :
    (left.place record).SameContents (right.place record) := by
  have put : ∀ {first second : Cabinet}, first.SameContents second →
      { first.index record with
        kept := first.kept.insert record.id record
        order := first.order ++ [record.id] }.SameContents
      { second.index record with
        kept := second.kept.insert record.id record
        order := second.order ++ [record.id] } := by
    intro first second same
    apply (same.index record).relist
    · exact same.kept.insert record.id record
    · exact congrArg (· ++ [record.id]) same.order
  simp only [Cabinet.place, same.get?]
  cases right.get? record.id with
  | none => exact put same
  | some previous => exact put (same.discard previous)

theorem replace (same : left.SameContents right)
    (previous record : Record) :
    (left.replace previous record).SameContents
      (right.replace previous record) := by
  apply ((same.unindex previous).index record).relist
  · exact (same.kept.erase previous.id).insert record.id record
  · exact congrArg (List.map _) same.order

theorem merge (same : left.SameContents right) (record : Record) :
    (left.merge record).SameContents (right.merge record) := by
  simp only [Cabinet.merge, same.get?]
  cases right.get? record.id with
  | none => exact same.place record
  | some previous => exact same.replace previous record

theorem create (same : left.SameContents right) (record : Record)
    (freshId : Bool) :
    (left.create record freshId).2.SameContents
      (right.create record freshId).2 := by
  have entrant := same.entrant record freshId
  rcases left.create_cases record freshId with
    ⟨_, refuses, failed⟩ | ⟨accepts, entered⟩
  · rcases right.create_cases record freshId with
      ⟨_, _, alsoFailed⟩ | ⟨accepts, _⟩
    · rw [failed, alsoFailed]
      exact same
    · rw [entrant, same.validator, accepts] at refuses
      cases refuses
  · rcases right.create_cases record freshId with
      ⟨_, refuses, _⟩ | ⟨_, alsoEntered⟩
    · rw [entrant, same.validator, refuses] at accepts
      cases accepts
    · rw [entered, alsoEntered, entrant]
      exact (same.place _).revised

theorem edit (same : left.SameContents right) (id : RecordId)
    (change : Record → Record) :
    (left.edit id change).2.SameContents (right.edit id change).2 := by
  simp only [Cabinet.edit, same.get?, same.validate, same.contains_kept]
  cases right.get? id with
  | none => exact same
  | some previous =>
      simp only
      cases right.validate (change previous) with
      | error fault => exact same
      | ok =>
          simp only
          split
          · exact same
          · exact (same.replace previous (change previous)).revised

theorem delete (same : left.SameContents right) (id : RecordId) :
    (left.delete id).2.SameContents (right.delete id).2 := by
  simp only [Cabinet.delete, same.get?]
  cases right.get? id with
  | none => exact same
  | some record => exact (same.discard record).revised

theorem foldl {step : Cabinet → α → Cabinet}
    (keeps : ∀ {left right : Cabinet}, left.SameContents right →
      ∀ item, (step left item).SameContents (step right item))
    (same : left.SameContents right) (items : List α) :
    (items.foldl step left).SameContents (items.foldl step right) := by
  induction items generalizing left right with
  | nil => exact same
  | cons item items ih =>
      apply ih
      exact keeps same item

theorem restore (same : left.SameContents right) (records : List Record) :
    (left.restore records).2.SameContents (right.restore records).2 := by
  have merged := same.foldl (fun same record => same.merge record) records
  simp only [Cabinet.restore]
  split
  · exact merged
  · exact merged.revised

theorem after (same : left.SameContents right) (change : Change) :
    (left.after change).SameContents (right.after change) := by
  cases change with
  | create record freshId => exact same.create record freshId
  | edit id change => exact same.edit id change
  | delete id => exact same.delete id
  | updateWhere test change =>
      simp only [Cabinet.after, updateWhere_snd, same.matching]
      exact same.foldl (fun same id => same.edit id change) _
  | deleteWhere test =>
      simp only [Cabinet.after, deleteWhere, same.matching]
      exact same.foldl (fun same id => same.delete id) _
  | restore records => exact same.restore records

end SameContents

/-- Two cabinets give the same answers to whoever reads them. -/
structure ReadsAlike (left right : Cabinet) : Prop where
  get? : left.get? = right.get?
  findByFirstName : left.findByFirstName = right.findByFirstName
  findByLastName : left.findByLastName = right.findByLastName
  findByDateOfBirth : left.findByDateOfBirth = right.findByDateOfBirth
  records : left.records = right.records
  count : left.count = right.count
  verify : left.verify = right.verify

theorem SameContents.flaw? {left right : Cabinet}
    (same : left.SameContents right) : left.flaw? = right.flaw? := by
  have indexed : left.isIndexed = right.isIndexed := by
    funext record
    simp only [isIndexed, Lookup.holds, Lookup.find_congr same.firstNames,
      Lookup.find_congr same.lastNames, Lookup.find_congr same.birthdays]
  have sizes : left.lookupSizes = right.lookupSizes := by
    simp only [lookupSizes, Lookup.entries, same.firstNames.foldl_eq,
      same.lastNames.foldl_eq, same.birthdays.foldl_eq]
  simp only [Cabinet.flaw?, same.order, same.kept.size_eq,
    same.kept.values_eq, indexed, sizes]

theorem SameContents.readsAlike {left right : Cabinet}
    (same : left.SameContents right) : left.ReadsAlike right := by
  constructor
  · exact same.get?
  · funext name
    rw [findByFirstName, same.resolve, Lookup.find_congr same.firstNames]
    rfl
  · funext name
    rw [findByLastName, same.resolve, Lookup.find_congr same.lastNames]
    rfl
  · funext day
    rw [findByDateOfBirth, same.resolve, Lookup.find_congr same.birthdays]
    rfl
  · rw [records, same.resolve, same.order]
    rfl
  · exact congrArg List.length same.order
  · rw [verify, same.flaw?]
    rfl

end Cabinet

namespace FiledCabinet

/-- A cabinet with a file and one without go on having the same contents and
giving the same answers as they take the same changes, whatever becomes of the
file. -/
theorem sameContents_of_changes {filed : FiledCabinet} {bare : Cabinet}
    (consistent : filed.cabinet.Consistent)
    (start : filed.cabinet.SameContents bare) (changes : List Change) :
    (changes.foldl after filed).cabinet.SameContents
        (changes.foldl Cabinet.after bare) ∧
      (changes.foldl after filed).cabinet.ReadsAlike
        (changes.foldl Cabinet.after bare) := by
  have same : (changes.foldl after filed).cabinet.SameContents
      (changes.foldl Cabinet.after bare) := by
    rw [cabinet_foldl_after consistent]
    exact start.foldl (fun same change => same.after change) changes
  exact ⟨same, same.readsAlike⟩

/-- This is so although the file cannot take a record that both keep. -/
theorem sameContents_of_unwritten :
    (blank (fun _ => none) 0).cabinet.Consistent ∧
    (blank (fun _ => none) 0).cabinet.SameContents
      (.empty (fun _ => none) 1) ∧
    ((blank (fun _ => none) 0).create
      { id := 1, letter := '😀' } false).1 =
        .error (.storage (.wideLetter '😀' 1)) ∧
    ((blank (fun _ => none) 0).after (.create
      { id := 1, letter := '😀' } false)).cabinet.SameContents
        ((Cabinet.empty (fun _ => none) 1).after (.create
          { id := 1, letter := '😀' } false)) := by
  have consistent := Cabinet.Consistent.empty (fun _ => none) 0
  have start := Cabinet.SameContents.empty (fun _ => none) 0 1
  refine ⟨consistent, start, rfl, ?_⟩
  have run := @sameContents_of_changes (blank (fun _ => none) 0) _ consistent
    start [.create { id := 1, letter := '😀' } false]
  exact run.1

end FiledCabinet

end Cardfile
