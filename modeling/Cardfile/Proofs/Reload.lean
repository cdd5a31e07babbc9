import Cardfile.Proofs.Memo
import Cardfile.Proofs.Query.Inserts
import Cardfile.Proofs.Roster

/-!
# Reloading

The rows that a store shows of all its records, each written as an insert,
fill an empty cabinet with the same records.  What one insert adds is said
first, then what a row of them adds; that the rows are shown rightly before
and after does not depend on what else has happened at the desk.
-/

namespace Cardfile

open Query
open Storage

theorem Answer.ofRecords_all (records : List Record) :
    ofRecords records Field.all none =
      { columns := headers Field.all
        rows := records.map (project Field.all) } := by
  have everything : records.filter (Condition.holds none) = records :=
    List.filter_eq_self.mpr fun _ _ => rfl
  rw [ofRecords, everything]

namespace Cabinet

/-- A cabinet that accepts every record, and the records in it. -/
structure Accepting (cabinet : Cabinet) (records : List Record) : Prop where
  consistent : cabinet.Consistent
  validator : cabinet.validator = .acceptAll
  records : cabinet.records = records

theorem Accepting.create {cabinet : Cabinet} {records : List Record}
    (accepting : cabinet.Accepting records) {record : Record}
    (new : record.id ∉ Roll.ids records) :
    (cabinet.create record false).1 = .ok record.id ∧
      Accepting (cabinet.create record false).2 (records ++ [record]) := by
  have kept := accepting.consistent.create record false
  rcases cabinet.create_cases record false with
    ⟨reason, refused, _⟩ | ⟨_, entered⟩
  · rw [accepting.validator] at refused
    cases refused
  · have same : cabinet.entrant record false = record := rfl
    rw [same] at entered
    constructor
    · rw [entered]
    · constructor
      · exact kept
      · rw [(cabinet.create_advances record false).validator]
        exact accepting.validator
      · rw [entered, records_revised, accepting.consistent.records_place,
          accepting.records, Roll.strike_of_not_mem _ new]

end Cabinet

namespace Desk

variable {count : Nat}

/-- What a store answers to texts one after the other, and the desk in the
end. -/
def dictate (desk : Desk count) (which : Fin count) :
    List String → List (Except Fault Answer) × Desk count
  | [] => ([], desk)
  | text :: texts =>
      let (answers, later) :=
        (desk.take (.statement which text)).dictate which texts
      (desk.answer which text :: answers, later)

theorem dictate_snd (desk : Desk count) (which : Fin count)
    (texts : List String) :
    (desk.dictate which texts).2 =
      (texts.map (Turn.statement which)).foldl Desk.take desk := by
  induction texts generalizing desk with
  | nil => rfl
  | cons text texts ih => exact ih _

theorem stores_take (desk : Desk count) (turn : Turn count)
    (which : Fin count) :
    (desk.take turn).stores which = desk.stores which ∨
      ∃ change,
        (desk.take turn).stores which = (desk.stores which).after change := by
  cases turn with
  | change other change =>
      simp only [take, stores_put]
      split
      · next same => exact .inr ⟨change, same ▸ rfl⟩
      · exact .inl rfl
  | statement other text =>
      simp only [take, stores_put]
      split
      · next same =>
          subst same
          exact desk.engine.store_execute _ text
      · exact .inl rfl

theorem consistent_foldl_take {desk : Desk count}
    (consistent : ∀ which, (desk.stores which).cabinet.Consistent)
    (turns : List (Turn count)) (which : Fin count) :
    ((turns.foldl Desk.take desk).stores which).cabinet.Consistent := by
  induction turns generalizing desk with
  | nil => exact consistent which
  | cons turn turns ih =>
      apply ih
      intro other
      rcases desk.stores_take turn other with same | ⟨change, changed⟩
      · rw [same]
        exact consistent other
      · rw [changed, Store.cabinet_after (consistent other)]
        exact (consistent other).after change

theorem Sound.foldl_take_any {digest : String → UInt64} {desk : Desk count}
    (sound : desk.Sound digest fun _ => True) (turns : List (Turn count)) :
    (turns.foldl Desk.take desk).Sound digest fun _ => True := by
  apply sound.foldl_take turns
  intro turn _
  cases turn <;> trivial

theorem Sound.dictate {digest : String → UInt64} {desk : Desk count}
    (sound : desk.Sound digest fun _ => True) (which : Fin count)
    (texts : List String) :
    (desk.dictate which texts).2.Sound digest fun _ => True := by
  rw [dictate_snd]
  exact sound.foldl_take_any _

/-- White space around it does not turn the select of everything into another
select, so that its answers are right for every digest. -/
theorem Sound.answer_selectAll {digest : String → UInt64}
    {texts : String → Prop} {desk : Desk count}
    (sound : desk.Sound digest texts) (which : Fin count) :
    desk.answer which "select *" = .ok
      { columns := headers Field.all
        rows := (desk.stores which).cabinet.records.map
          (project Field.all) } := by
  rw [← Answer.ofRecords_all]
  apply sound.answer_of_alone which _ read_selectAll
  intro others test selects _
  obtain ⟨text, _, reads⟩ := selects.exists_text
  have shown := Statement.shown_eq_trim reads
  obtain ⟨rfl, rfl⟩ := select_of_trim reads shown.symm
  exact ⟨rfl, fun _ => rfl⟩

/-- What an insert answers that has added a record. -/
def added (record : Record) : Except Fault Answer :=
  .ok { affected := 1, ids := [record.id] }

section Inserts

variable {desk : Desk count} {which : Fin count} {cabinet : Cabinet}
  {present : List Record}

/-- The insert of a record that is not there yet adds the record as it is
written. -/
theorem execute_insertOf (memory : desk.stores which = .memory cabinet)
    (accepting : cabinet.Accepting present) {record : Record}
    (quotable : Quotable record) (new : record.id ∉ Roll.ids present) :
    desk.answer which (insertOf record) = added record ∧
      ∃ later : Cabinet,
        (desk.take (.statement which (insertOf record))).stores which =
          .memory later ∧
        later.Accepting (present ++ [record.asWritten]) := by
  have newWritten : record.asWritten.id ∉ Roll.ids present := new
  obtain ⟨answered, filled⟩ := accepting.create newWritten
  have executed : desk.engine.execute (desk.stores which) (insertOf record) =
      (added record, desk.engine,
        .memory (cabinet.create record.asWritten false).2) := by
    rw [memory]
    unfold Engine.execute
    rw [read_insertOf quotable]
    simp only [Engine.run, Store.create, Store.carry, answered]
    rfl
  constructor
  · rw [answer, executed]
  · refine ⟨_, ?_, filled⟩
    simp only [take, executed, stores_put, if_pos]

/-- The inserts of records with different ids add them in their order. -/
theorem dictate_insertOf (memory : desk.stores which = .memory cabinet)
    (accepting : cabinet.Accepting present) {records : List Record}
    (quotable : ∀ record ∈ records, Quotable record)
    (distinct : (Roll.ids (present ++ records)).Nodup) :
    (desk.dictate which (records.map insertOf)).1 = records.map added ∧
      ∃ later : Cabinet,
        (desk.dictate which (records.map insertOf)).2.stores which =
          .memory later ∧
        later.Accepting (present ++ records.map Record.asWritten) := by
  induction records generalizing desk cabinet present with
  | nil =>
      constructor
      · rfl
      · refine ⟨cabinet, memory, ?_⟩
        simpa using accepting
  | cons record records ih =>
      obtain ⟨own, others⟩ := List.forall_mem_cons.mp quotable
      have new : record.id ∉ Roll.ids present := by
        intro listed
        rw [Roll.ids, List.map_append] at distinct
        exact (List.nodup_append.mp distinct).2.2 _ listed record.id
          List.mem_cons_self rfl
      obtain ⟨answered, next, memory, accepting⟩ :=
        execute_insertOf memory accepting own new
      have distinct : (Roll.ids
          ((present ++ [record.asWritten]) ++ records)).Nodup := by
        simpa [Roll.ids, Record.asWritten] using distinct
      obtain ⟨answers, later, memory, accepting⟩ :=
        ih memory accepting others distinct
      constructor
      · rw [List.map_cons, List.map_cons, ← answered, ← answers]
        rfl
      · refine ⟨later, memory, ?_⟩
        simpa using accepting

end Inserts

/-- Whatever has happened at a desk, the rows of all the records of a store
bring the records back when they are inserted into an empty cabinet that
accepts everything: no insert fails, the records agree with the first ones in
their order, and the same rows are shown of them. -/
theorem reload_of_rows (digest : String → UInt64) {stores : Fin count → Store}
    (apart : Function.Injective fun which => (stores which).cabinet.serial)
    (consistent : ∀ which, (stores which).cabinet.Consistent)
    (turns : List (Turn count)) {source target : Fin count}
    {cabinet : Cabinet} :
    let desk := turns.foldl Desk.take ⟨.fresh digest, stores⟩
    let records := (desk.stores source).cabinet.records
    (∀ record ∈ records, Quotable record) →
    desk.stores target = .memory cabinet →
    cabinet.validator = .acceptAll → cabinet.records = [] →
    ∃ rows, desk.answer source "select *" =
        .ok { columns := headers Field.all, rows := rows } ∧
      let (answers, reloaded) :=
        (desk.take (.statement source "select *")).dictate target
          (rows.map (insertText (headers Field.all)))
      answers = records.map (fun record =>
        .ok { affected := 1, ids := [record.id] }) ∧
      List.Forall₂ (fun before after => before.agrees after = true) records
        (reloaded.stores target).cabinet.records ∧
      reloaded.answer target "select *" =
        .ok { columns := headers Field.all, rows := rows } := by
  intro desk records quotable memory validator noRecords
  have sound : desk.Sound digest fun _ => True :=
    (Sound.fresh digest _ apart).foldl_take_any turns
  have tidy : ∀ which, (desk.stores which).cabinet.Consistent :=
    consistent_foldl_take consistent turns
  let dump : Turn count := .statement source "select *"
  have unchanged : (desk.take dump).stores target = .memory cabinet := by
    rw [desk.take_select source read_selectAll]
    exact memory
  have empty : cabinet.Accepting [] := by
    constructor
    · have consistent := tidy target
      rwa [memory] at consistent
    · exact validator
    · exact noRecords
  obtain ⟨answers, filled, refilled, accepting⟩ :=
    dictate_insertOf unchanged empty quotable
      (tidy source).nodup_ids_records
  have texts : (records.map (project Field.all)).map
      (insertText (headers Field.all)) = records.map insertOf :=
    List.map_map
  have within : dump.Within fun _ => True := trivial
  have rightly := ((sound.take within).dictate target
    (records.map insertOf)).answer_selectAll target
  rw [refilled, Store.cabinet, accepting.records, List.nil_append,
    map_project_asWritten] at rightly
  refine ⟨records.map (project Field.all), sound.answer_selectAll source, ?_⟩
  rw [texts]
  refine ⟨answers, ?_, rightly⟩
  rw [refilled]
  exact accepting.records ▸ Record.forall₂_agrees_asWritten records

/-- A store with a record changed directly and one that came with a statement,
and a store to load them into. -/
theorem reload_of_two_rows :
    let stores : Fin 2 → Store := fun which =>
      .memory (.empty .acceptAll which)
    let turns : List (Turn 2) :=
      [.change 0 (.create
          { id := 7, firstName := " \x00", number := ⟨-150, -20⟩ } false),
        .statement 0 "insert (lastname, points) values (Lee, 3)"]
    let desk := turns.foldl Desk.take ⟨.fresh Fingerprint.ofText, stores⟩
    (desk.stores 0).cabinet.records.length = 2 ∧
    ∃ rows, desk.answer 0 "select *" =
        .ok { columns := headers Field.all, rows := rows } ∧
      ((desk.take (.statement 0 "select *")).dictate 1
          (rows.map (insertText (headers Field.all)))).2.answer 1 "select *" =
        .ok { columns := headers Field.all, rows := rows } := by
  intro stores turns desk
  have records : (desk.stores 0).cabinet.records =
      [{ id := 7, firstName := " \x00", number := ⟨-150, -20⟩ },
        { id := 2, lastName := "Lee", points := 3 }] := by
    decide +kernel
  have quotable : ∀ record ∈ (desk.stores 0).cabinet.records,
      Quotable record := by
    rw [records]
    simp only [List.forall_mem_cons, List.not_mem_nil, false_implies,
      implies_true, and_true]
    constructor <;> exact
      ⟨⟨by decide, by decide, by decide⟩, by decide, by decide, by decide⟩
  have apart : Function.Injective
      fun which => (stores which).cabinet.serial :=
    fun _ _ same => Fin.ext same
  have free : desk.stores 1 = .memory (.empty .acceptAll 1) := rfl
  obtain ⟨rows, listed, _, _, relisted⟩ :=
    reload_of_rows Fingerprint.ofText apart (fun which => .empty _ which)
      turns quotable free rfl rfl
  refine ⟨by rw [records]; rfl, rows, listed, relisted⟩

end Desk

end Cardfile
