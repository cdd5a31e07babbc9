import Cardfile.Proofs.Roster

/-!
# Fresh ids

The search for a fresh id knows no bound of its own.  It ends because more
numbers lie behind the number of records than there are records to take them,
and as long as twice this number fits an id it ends before the ids overflow.
What it ends with is the least free id on its way, so that a record created
under it takes the place of no other.
-/

namespace Cardfile

open Storage

namespace Cabinet

/-- The search from an id on: it goes on to the next id from one that is
taken, unless this is the greatest, and ends at one that is free. -/
inductive Seeks (taken : RecordId → Bool) : RecordId → RecordId → Prop where
  | here {id : RecordId} (free : taken id = false) : Seeks taken id id
  | next {id found : RecordId} (busy : taken id = true)
      (room : id < Int32.maxValue) (later : Seeks taken (id + 1) found) :
      Seeks taken id found

theorem toInt_add_one {id : RecordId} (room : id < Int32.maxValue) :
    (id + 1).toInt = id.toInt + 1 := by
  have low := id.le_toInt
  have high := Int32.lt_iff_toInt_lt.mp room
  rw [Int32.toInt_maxValue] at high
  have one : (1 : Int32).toInt = 1 := by decide
  rw [Int32.toInt_add, one]
  apply Int.bmod_eq_of_le <;> omega

namespace Seeks

variable {taken : RecordId → Bool} {start found : RecordId}

theorem free (seeks : Seeks taken start found) : taken found = false := by
  induction seeks with
  | here free => exact free
  | next _ _ _ ih => exact ih

theorem le (seeks : Seeks taken start found) :
    start.toInt ≤ found.toInt := by
  induction seeks with
  | here => exact Int.le_refl _
  | next _ room _ ih =>
      rw [toInt_add_one room] at ih
      omega

theorem least (seeks : Seeks taken start found) {id : RecordId}
    (behind : start.toInt ≤ id.toInt) (free : taken id = false) :
    found.toInt ≤ id.toInt := by
  induction seeks with
  | here => exact behind
  | @next start found busy room _ ih =>
      apply ih
      rw [toInt_add_one room]
      have different : start.toInt ≠ id.toInt := by
        intro same
        rw [Int32.toInt_inj.mp same, free] at busy
        cases busy
      omega

theorem unique {other : RecordId} (seeks : Seeks taken start found)
    (again : Seeks taken start other) : found = other := by
  apply Int32.toInt_inj.mp
  apply Int.le_antisymm
  · exact seeks.least again.le again.free
  · exact again.least seeks.le seeks.free

/-- The search gets past a row of taken ids as long as they do not
overflow. -/
theorem of_busy {number offset : Nat}
    (room : number + offset < Int32.size / 2)
    (busy : ∀ earlier < offset,
      taken (Int32.ofNat (number + earlier)) = true)
    (free : taken (Int32.ofNat (number + offset)) = false) :
    Seeks taken (Int32.ofNat number) (Int32.ofNat (number + offset)) := by
  induction offset generalizing number with
  | zero => exact .here free
  | succ offset ih =>
      have shift : ∀ offset, number + (offset + 1) = number + 1 + offset := by
        intro offset
        omega
      rw [shift] at room free ⊢
      apply Seeks.next
      · exact busy 0 (Nat.succ_pos offset)
      · rw [Int32.lt_iff_toInt_lt, Int32.toInt_maxValue,
          Int32.toInt_ofNat_of_lt]
        · simp only [Int32.size] at room
          omega
        · simp only [Int32.size] at room
          omega
      · have after : Int32.ofNat (number + 1) = Int32.ofNat number + 1 :=
          Int32.ofNat_add number 1
        rw [← after]
        apply ih room _ free
        intro earlier less
        rw [← shift]
        exact busy (earlier + 1) (Nat.succ_lt_succ less)

end Seeks

/-- An id that no record has, the least behind the number of records and not
much greater than this. -/
structure Fresh (cabinet : Cabinet) (id : RecordId) : Prop where
  free : cabinet.get? id = none
  behind : cabinet.count + 1 ≤ id.toInt
  least : ∀ other : RecordId, cabinet.count + 1 ≤ other.toInt →
    cabinet.get? other = none → id.toInt ≤ other.toInt
  near : id.toInt ≤ 2 * cabinet.count + 1

/-- The cabinet after a record has come to the others. -/
structure Gains (before : Cabinet) (record : Record) (after : Cabinet) :
    Prop where
  records : after.records = before.records ++ [record]
  count : after.count = before.count + 1
  stays : ∀ id kept, before.get? id = some kept →
    after.get? id = some kept

theorem toInt_first {count : Nat} (few : count < Int32.size / 4) :
    (Int32.ofNat (count + 1)).toInt = count + 1 := by
  apply Int32.toInt_ofNat_of_lt
  simp only [Int32.size] at few
  omega

namespace Consistent

variable {cabinet : Cabinet} (consistent : cabinet.Consistent)
include consistent

theorem contains_eq_false_iff (id : RecordId) :
    cabinet.kept.contains id = false ↔ cabinet.get? id = none := by
  rw [← Bool.not_eq_true, consistent.contains_kept, consistent.not_mem_order]

theorem gains_place {record : Record}
    (free : cabinet.get? record.id = none) :
    cabinet.Gains record (cabinet.place record).revised := by
  have absent := consistent.not_mem_order.mpr free
  constructor
  case records =>
    rw [records_revised, consistent.records_place, Roll.strike_of_not_mem]
    rwa [consistent.ids_records]
  case count =>
    rw [count, order_revised, consistent.order_place,
      filter_of_not_mem absent, List.length_append]
    rfl
  case stays =>
    intro id kept present
    rw [get?_revised, consistent.get?_place, if_neg]
    · exact present
    · intro same
      rw [same, present] at free
      cases free

variable (few : cabinet.count < Int32.size / 4)
include few

/-- As many tries as there are records are enough. -/
theorem exists_offset_nextId :
    ∃ offset ≤ cabinet.count,
      cabinet.nextId = Int32.ofNat (cabinet.count + 1 + offset) ∧
      cabinet.kept.contains cabinet.nextId = false ∧
      ∀ earlier < offset, cabinet.kept.contains
        (Int32.ofNat (cabinet.count + 1 + earlier)) = true := by
  obtain ⟨offset, bound, found, _, busy⟩ :=
    firstFree_cases cabinet.kept.contains cabinet.count (cabinet.count + 1)
  refine ⟨offset, bound, found, ?_, busy⟩
  have room : cabinet.count < UInt32.size := by
    simp only [Int32.size] at few
    simp only [UInt32.size]
    omega
  exact (consistent.contains_eq_false_iff _).mpr (consistent.get?_nextId room)

theorem seeks_nextId :
    Seeks cabinet.kept.contains (Int32.ofNat (cabinet.count + 1))
      cabinet.nextId := by
  obtain ⟨offset, bound, found, free, busy⟩ :=
    consistent.exists_offset_nextId few
  rw [found] at free ⊢
  apply Seeks.of_busy _ busy free
  simp only [Int32.size] at few ⊢
  omega

theorem fresh_nextId : cabinet.Fresh cabinet.nextId := by
  have seeks := consistent.seeks_nextId few
  constructor
  case free => exact (consistent.contains_eq_false_iff _).mp seeks.free
  case behind =>
    rw [← toInt_first few]
    exact seeks.le
  case least =>
    intro other behind free
    rw [← toInt_first few] at behind
    exact seeks.least behind ((consistent.contains_eq_false_iff _).mpr free)
  case near =>
    obtain ⟨offset, bound, found, _⟩ := consistent.exists_offset_nextId few
    rw [found, Int32.toInt_ofNat_of_lt]
    · omega
    · simp only [Int32.size] at few
      omega

end Consistent

/-- In a cabinet with fewer records than a quarter of all ids, the search for
a fresh id ends without overflow, and only there; what it gives is the least
id behind the number of records that is free, and a record created under it
either is refused or comes to all the others. -/
theorem nextId_fresh_of_changes (validator : Validator) (serial : Nat)
    (changes : List Change)
    (few : (changes.foldl after (empty validator serial)).count <
      Int32.size / 4) :
    let cabinet := changes.foldl after (empty validator serial)
    let first := Int32.ofNat (cabinet.count + 1)
    first.toInt = cabinet.count + 1 ∧
      (∀ id, Seeks cabinet.kept.contains first id ↔ id = cabinet.nextId) ∧
      cabinet.Fresh cabinet.nextId ∧
      ∀ record : Record,
        let entrant := { record with id := cabinet.nextId }
        match validator entrant with
        | some reason => cabinet.create record true =
            (.error (.rejected cabinet.nextId reason), cabinet)
        | none => (cabinet.create record true).1 = .ok cabinet.nextId ∧
            cabinet.Gains entrant (cabinet.create record true).2 := by
  intro cabinet first
  have consistent : cabinet.Consistent :=
    (Consistent.empty validator serial).foldl_after changes
  have standing : (empty validator serial).Advances cabinet :=
    .foldl after_advances changes _
  have fresh := consistent.fresh_nextId few
  refine ⟨toInt_first few, ?_, fresh, ?_⟩
  · intro id
    have seeks := consistent.seeks_nextId few
    constructor
    · intro found
      exact found.unique seeks
    · intro same
      rw [same]
      exact seeks
  · intro record entrant
    have same : cabinet.entrant record true = entrant := rfl
    have rules : cabinet.validator = validator := standing.validator
    rcases cabinet.create_cases record true with
      ⟨reason, refused, failed⟩ | ⟨accepted, entered⟩
    · rw [same, rules] at refused
      rw [refused]
      exact failed
    · rw [same, rules] at accepted
      rw [accepted, entered]
      exact ⟨rfl, consistent.gains_place fresh.free⟩

/-- Ids below zero and the greatest of all do not get in the way of the
search. -/
theorem nextId_fresh_of_restored :
    let ids : List RecordId := [-5, Int32.maxValue, 5, 6]
    let changes := [Change.restore (ids.map fun id => { id := id })]
    let cabinet := changes.foldl after (empty .acceptAll 0)
    cabinet.count < Int32.size / 4 ∧ cabinet.nextId = 7 ∧
      (cabinet.create {} true).2.count = 5 := by
  intro ids changes cabinet
  have few : cabinet.count < Int32.size / 4 := by decide +kernel
  have next : cabinet.nextId = 7 := by decide +kernel
  obtain ⟨_, _, _, creates⟩ := nextId_fresh_of_changes .acceptAll 0 changes few
  obtain ⟨_, gains⟩ := creates {}
  have four : cabinet.count = 4 := by decide +kernel
  refine ⟨few, next, ?_⟩
  rw [gains.count, four]

end Cabinet

end Cardfile
