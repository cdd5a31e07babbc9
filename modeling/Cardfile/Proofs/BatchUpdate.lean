import Cardfile.Proofs.Outcomes
import Cardfile.Proofs.Roster

/-!
# Batch updates

A batch goes through the ids that match before it begins, while its edits give
ids up and take others.  A new id is always a free one, so it is none of those
that the batch has still to come to: every one of these leads to its record as
the batch found it, and no record is changed twice.
-/

namespace Cardfile.Cabinet

/-- The cabinet after a row of edits that make the same change. -/
def editAll (change : Record → Record) (cabinet : Cabinet)
    (ids : List RecordId) : Cabinet :=
  ids.foldl (fun cabinet id => (cabinet.edit id change).2) cabinet

/-- The cabinet at the moment when a row of edits comes to an id. -/
def atTurn (change : Record → Record) (cabinet : Cabinet)
    (ids : List RecordId) (id : RecordId) : Cabinet :=
  cabinet.editAll change (ids.takeWhile (· != id))

/-- What an edit of a live record answers. -/
def verdict (cabinet : Cabinet) (old : RecordId) (record : Record) :
    Except Fault Unit :=
  match cabinet.validator record with
  | some reason => .error (.rejected record.id reason)
  | none =>
      if record.id ≠ old ∧ (cabinet.get? record.id).isSome then
        .error (.rejected old (.idTaken record.id))
      else .ok ()

/-- A row of edits comes to a record and changes it. -/
def Edits (change : Record → Record) (cabinet : Cabinet)
    (ids : List RecordId) (record : Record) : Prop :=
  record.id ∈ ids ∧
    (cabinet.atTurn change ids record.id).verdict record.id (change record) =
      .ok ()

instance (change : Record → Record) (cabinet : Cabinet)
    (ids : List RecordId) (record : Record) :
    Decidable (cabinet.Edits change ids record) :=
  inferInstanceAs (Decidable (_ ∧ _))

theorem edit_of_present {cabinet : Cabinet} {id : RecordId}
    {record : Record} (present : cabinet.get? id = some record)
    (change : Record → Record) :
    cabinet.edit id change =
      (cabinet.verdict id (change record),
        if cabinet.verdict id (change record) = .ok () then
          (cabinet.replace record (change record)).revised
        else cabinet) := by
  have taken : ((change record).id != id &&
      cabinet.kept.contains (change record).id) = true ↔
        (change record).id ≠ id ∧
          (cabinet.get? (change record).id).isSome = true := by
    rw [Bool.and_eq_true, bne_iff_ne, get?_eq,
      Std.TreeMap.isSome_getElem?_eq_contains]
  cases judged : cabinet.validator (change record) with
  | some reason => simp [edit, present, validate, verdict, judged]
  | none =>
      simp only [edit, present, validate, verdict, judged, taken]
      split
      · simp
      · simp

theorem room_of_verdict {cabinet : Cabinet} {old : RecordId}
    {record : Record} (passed : cabinet.verdict old record = .ok ()) :
    record.id = old ∨ cabinet.get? record.id = none := by
  simp only [verdict] at passed
  split at passed
  · cases passed
  · split at passed
    · cases passed
    · next room =>
        by_cases same : record.id = old
        · exact .inl same
        · right
          simpa [same] using room

theorem accepted_of_verdict {cabinet : Cabinet} {old : RecordId}
    {record : Record} (passed : cabinet.verdict old record = .ok ()) :
    cabinet.validator record = none := by
  simp only [verdict] at passed
  split at passed
  · cases passed
  · assumption

namespace Consistent

variable {cabinet : Cabinet}

theorem records_edit (consistent : cabinet.Consistent) {first : Record}
    (present : cabinet.get? first.id = some first)
    (change : Record → Record) :
    (cabinet.edit first.id change).2.records =
      cabinet.records.map fun record =>
        if record.id = first.id ∧
            cabinet.verdict first.id (change first) = .ok () then
          change first
        else record := by
  rw [edit_of_present present]
  by_cases passed : cabinet.verdict first.id (change first) = .ok ()
  · rw [if_pos passed, records_revised,
      consistent.records_replace (room_of_verdict passed), Roster.substitute]
    simp [passed]
  · simp [passed]

theorem get?_edit_of_ne (consistent : cabinet.Consistent) {id other : RecordId}
    (different : other ≠ id) {kept : Record}
    (present : cabinet.get? other = some kept) (change : Record → Record) :
    (cabinet.edit id change).2.get? other = some kept := by
  rcases cabinet.edit_cases id change with
    ⟨_, failed⟩ | ⟨_, _, _, _, failed⟩ | ⟨previous, found, _, room, edited⟩
  · rw [failed]
    exact present
  · rw [failed]
    exact present
  · have apart : (change previous).id ≠ other := by
      intro same
      rcases room with own | free
      · exact different (same.symm.trans own)
      · rw [same, present] at free
        cases free
    rw [edited, get?_revised, get?_replace, if_neg apart,
      consistent.ownId id previous found, if_neg (Ne.symm different)]
    exact present

end Consistent

theorem atTurn_cons_self (change : Record → Record) (cabinet : Cabinet)
    (ids : List RecordId) (id : RecordId) :
    cabinet.atTurn change (id :: ids) id = cabinet := by
  simp [atTurn, editAll]

theorem atTurn_cons_of_ne (change : Record → Record) (cabinet : Cabinet)
    (ids : List RecordId) {first id : RecordId} (different : first ≠ id) :
    cabinet.atTurn change (first :: ids) id =
      (cabinet.edit first change).2.atTurn change ids id := by
  simp [atTurn, editAll, different]

theorem validator_editAll (change : Record → Record) (cabinet : Cabinet)
    (ids : List RecordId) :
    (cabinet.editAll change ids).validator = cabinet.validator := by
  have advances : cabinet.Advances (cabinet.editAll change ids) :=
    .foldl (fun cabinet id => cabinet.edit_advances id change) ids cabinet
  exact advances.validator

namespace Consistent

variable {cabinet : Cabinet}

/-- A row of edits comes to every record as it was before the row. -/
theorem get?_atTurn (consistent : cabinet.Consistent)
    (change : Record → Record) {ids : List RecordId} {id : RecordId}
    (turn : id ∈ ids) {record : Record}
    (present : cabinet.get? id = some record) :
    (cabinet.atTurn change ids id).get? id = some record := by
  induction ids generalizing cabinet with
  | nil => cases turn
  | cons first ids ih =>
      by_cases same : first = id
      · subst same
        rw [atTurn_cons_self]
        exact present
      · have later : id ∈ ids := by
          rcases List.mem_cons.mp turn with here | later
          · exact absurd here.symm same
          · exact later
        have kept := consistent.get?_edit_of_ne (Ne.symm same) present change
        rw [atTurn_cons_of_ne change cabinet ids same]
        exact ih (consistent.edit first change) later kept

/-- A row of edits changes the records that it comes to and that may then be
taken over, each once and in its place. -/
theorem records_editAll (consistent : cabinet.Consistent)
    (change : Record → Record) {ids : List RecordId} (distinct : ids.Nodup)
    (listed : ids ⊆ cabinet.order) :
    (cabinet.editAll change ids).records =
      cabinet.records.map fun record =>
        if cabinet.Edits change ids record then change record
        else record := by
  induction ids generalizing cabinet with
  | nil => simp [editAll, Edits]
  | cons id ids ih =>
      obtain ⟨fresh, distinctRest⟩ := List.nodup_cons.mp distinct
      obtain ⟨listedFirst, listedRest⟩ := List.cons_subset.mp listed
      obtain ⟨first, present⟩ := Option.isSome_iff_exists.mp
        ((consistent.mem_order id).mp listedFirst)
      obtain rfl := consistent.ownId id first present
      have next := consistent.edit first.id change
      have stillListed : ids ⊆ (cabinet.edit first.id change).2.order := by
        intro other member
        obtain ⟨kept, live⟩ := Option.isSome_iff_exists.mp
          ((consistent.mem_order other).mp (listedRest member))
        rw [next.mem_order, consistent.get?_edit_of_ne
          (ne_of_mem_of_not_mem member fresh) live change]
        rfl
      calc (cabinet.editAll change (first.id :: ids)).records
          = ((cabinet.edit first.id change).2.editAll change ids).records :=
            rfl
        _ = (cabinet.edit first.id change).2.records.map fun record =>
              if (cabinet.edit first.id change).2.Edits change ids record then
                change record
              else record := ih next distinctRest stillListed
        _ = cabinet.records.map fun record =>
              if cabinet.Edits change (first.id :: ids) record then
                change record
              else record := by
            rw [consistent.records_edit present, List.map_map]
            apply List.map_congr_left
            intro record member
            have own := consistent.get?_of_mem_resolve member
            rw [Function.comp_apply]
            by_cases same : record.id = first.id
            · -- the first record; its new id is not one that comes later
              obtain rfl : first = record := by
                rw [same, present] at own
                exact Option.some.inj own
              by_cases passed :
                  cabinet.verdict first.id (change first) = .ok ()
              · have behind : (change first).id ∉ ids := by
                  intro later
                  rcases room_of_verdict passed with kept | free
                  · exact fresh (kept ▸ later)
                  · exact consistent.not_mem_order.mpr free
                      (listedRest later)
                simp [Edits, atTurn_cons_self, passed, behind]
              · simp [Edits, atTurn_cons_self, passed, fresh]
            · have turn : record.id ∈ first.id :: ids ↔ record.id ∈ ids := by
                simp [same]
              simp [Edits, same, atTurn_cons_of_ne change cabinet ids
                (Ne.symm same)]

theorem trail_edited (change : Record → Record) (cabinet : Cabinet)
    {ids : List RecordId} (distinct : ids.Nodup) :
    trail (fun cabinet id => (cabinet.edit id change).2) (edited change)
        cabinet ids =
      ids.filter fun id =>
        ((cabinet.atTurn change ids id).edit id change).1 = .ok () := by
  induction ids generalizing cabinet with
  | nil => rfl
  | cons first ids ih =>
      obtain ⟨fresh, distinctRest⟩ := List.nodup_cons.mp distinct
      have rest : (ids.filter fun id =>
            ((cabinet.atTurn change (first :: ids) id).edit id change).1 =
              .ok ()) =
          ids.filter fun id =>
            (((cabinet.edit first change).2.atTurn change ids id).edit id
              change).1 = .ok () := by
        apply List.filter_congr
        intro id member
        rw [atTurn_cons_of_ne change cabinet ids
          (ne_of_mem_of_not_mem member fresh).symm]
      rw [trail, ih _ distinctRest, List.filter_cons, rest,
        atTurn_cons_self, edited]
      cases (cabinet.edit first change).1 with
      | ok => simp
      | error fault => simp

theorem mem_matching_iff (consistent : cabinet.Consistent)
    (test : Record → Bool) {record : Record}
    (member : record ∈ cabinet.records) :
    record.id ∈ cabinet.matching test ↔ test record = true := by
  have present := consistent.get?_of_mem_resolve member
  have listed := consistent.mem_order record.id
  simp [matching, present, listed]

theorem edit_atTurn (consistent : cabinet.Consistent)
    (change : Record → Record) {ids : List RecordId} {record : Record}
    (member : record ∈ cabinet.records) (turn : record.id ∈ ids) :
    let moment := cabinet.atTurn change ids record.id
    moment.get? record.id = some record ∧
      (moment.edit record.id change).1 =
        moment.verdict record.id (change record) := by
  intro moment
  have present : moment.get? record.id = some record :=
    consistent.get?_atTurn change turn (consistent.get?_of_mem_resolve member)
  constructor
  · exact present
  · rw [edit_of_present present]

/-- A row of edits that goes through the matching records counts those that it
changes. -/
theorem updateWhere_fst_eq_countP (consistent : cabinet.Consistent)
    (test : Record → Bool) (change : Record → Record) :
    (cabinet.updateWhere test change).1 =
      cabinet.records.countP fun record =>
        cabinet.Edits change (cabinet.matching test) record := by
  have distinct : (cabinet.matching test).Nodup :=
    consistent.listedOnce.filter _
  have byRecord (good : RecordId → Bool) :
      (cabinet.matching test).countP good =
        cabinet.records.countP fun record => good record.id && test record := by
    rw [← consistent.map_id_filter_records test, List.countP_map,
      List.countP_filter]
    rfl
  rw [updateWhere_fst, trail_edited change cabinet distinct,
    ← List.countP_eq_length_filter, byRecord]
  apply List.countP_congr
  intro record member
  have matched := consistent.mem_matching_iff test member
  by_cases turn : record.id ∈ cabinet.matching test
  · obtain ⟨_, answered⟩ := consistent.edit_atTurn change member turn
    simp [Edits, turn, matched.mp turn, answered]
  · have passed : test record = false := by
      simpa using mt matched.mpr turn
    simp [Edits, turn, passed]

end Consistent

/-- A batch comes to each matching record once, and finds it as it was before
the batch.  It changes the record in its place unless the result is not
accepted or takes an id that another record has at that moment.  All other
records stay as they are, and the changed ones are counted. -/
theorem updateWhere_matching_once (validator : Validator) (serial : Nat)
    (changes : List Change) (test : Record → Bool)
    (change : Record → Record) :
    let before := changes.foldl after (empty validator serial)
    let ids := before.matching test
    let answer := before.updateWhere test change
    (ids.Nodup ∧ ids = (before.records.filter test).map Record.id ∧
      answer.2 = before.editAll change ids) ∧
    (∀ record ∈ before.records, test record →
      let moment := before.atTurn change ids record.id
      moment.get? record.id = some record ∧
      (moment.edit record.id change).1 =
        match validator (change record) with
        | some reason => .error (.rejected (change record).id reason)
        | none =>
            if (change record).id ≠ record.id ∧
                (moment.get? (change record).id).isSome then
              .error (.rejected record.id (.idTaken (change record).id))
            else .ok ()) ∧
    (answer.2.count = before.count ∧
      answer.2.records = before.records.map (fun record =>
        if before.Edits change ids record then change record else record) ∧
      List.Forall₂ (fun old new => new = old ∨
          new = change old ∧ test old ∧ validator (change old) = none)
        before.records answer.2.records) ∧
    answer.1 = before.records.countP (fun record =>
      before.Edits change ids record) ∧
    answer.2.revision = before.revision + answer.1 := by
  intro before ids answer
  have consistent : before.Consistent :=
    (Consistent.empty validator serial).foldl_after changes
  have sameValidator : before.validator = validator :=
    (Advances.foldl after_advances changes _).validator
  have distinct : ids.Nodup := consistent.listedOnce.filter _
  have row : answer.2 = before.editAll change ids :=
    updateWhere_snd before test change
  have listed : ids ⊆ before.order := List.filter_subset_self _
  have records : answer.2.records = before.records.map fun record =>
      if before.Edits change ids record then change record else record := by
    rw [row]
    exact consistent.records_editAll change distinct listed
  have next : answer.2.Consistent := consistent.after (.updateWhere test change)
  have judged (record : Record) :
      (before.atTurn change ids record.id).validator = validator :=
    (validator_editAll change before _).trans sameValidator
  constructor
  · exact ⟨distinct, (consistent.map_id_filter_records test).symm, row⟩
  constructor
  · intro record member passes moment
    have turn := (consistent.mem_matching_iff test member).mpr passes
    obtain ⟨present, answered⟩ := consistent.edit_atTurn change member turn
    constructor
    · exact present
    · rw [answered, verdict, judged]
  constructor
  · constructor
    · rw [count, count, ← next.map_id_records, ← consistent.map_id_records,
        records, List.length_map, List.length_map, List.length_map]
    constructor
    · exact records
    · rw [records, List.forall₂_map_right_iff, List.forall₂_same]
      intro record member
      split
      · next edits =>
          obtain ⟨turn, passed⟩ := edits
          right
          constructor
          · rfl
          constructor
          · exact (consistent.mem_matching_iff test member).mp turn
          · rw [← judged record]
            exact accepted_of_verdict passed
      · exact .inl rfl
  constructor
  · exact consistent.updateWhere_fst_eq_countP test change
  · exact before.revision_updateWhere test change

end Cardfile.Cabinet
