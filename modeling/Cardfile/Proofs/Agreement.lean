import Cardfile.Proofs.Query.Conditions
import Cardfile.Proofs.Reload

/-!
# Agreement on conditions

A select looks at the records of its store one by one, or finds its answer in
the memo.  A delete collects ids first and then removes one record after the
other.  On the store they always agree: what a delete answers and leaves
behind is what the condition holds of, and no fault of a file comes between.
What a select says of the same condition is right as long as the memo does not
take it for another select.
-/

namespace Cardfile

open Query
open Storage

namespace Cabinet.Consistent

variable {cabinet : Cabinet} (consistent : cabinet.Consistent)
include consistent

theorem records_deleteWhere (test : Record → Bool) :
    (cabinet.deleteWhere test).2.records =
      cabinet.records.filter fun record => !test record :=
  congrArg (fun answer => answer.2.records)
    (consistent.deleteWhere_roster test)

theorem revision_deleteWhere (test : Record → Bool) :
    (cabinet.deleteWhere test).2.revision =
      cabinet.revision + (cabinet.records.filter test).length :=
  congrArg (fun answer => answer.2.changes)
    (consistent.deleteWhere_roster test)

theorem get?_deleteWhere (test : Record → Bool) {id : RecordId}
    (deleted : id ∈ Roll.ids (cabinet.records.filter test)) :
    (cabinet.deleteWhere test).2.get? id = none := by
  have next : (cabinet.deleteWhere test).2.Consistent :=
    consistent.after (.deleteWhere test)
  rw [← next.find?_records, Roll.find?_eq_none,
    consistent.records_deleteWhere test]
  intro left
  obtain ⟨record, passed, rfl⟩ := List.mem_map.mp deleted
  obtain ⟨other, failed, same⟩ := List.mem_map.mp left
  obtain ⟨member, passes⟩ := List.mem_filter.mp passed
  obtain ⟨otherMember, fails⟩ := List.mem_filter.mp failed
  have found := Roll.find?_of_mem consistent.nodup_ids_records member
  rw [← same, Roll.find?_of_mem consistent.nodup_ids_records otherMember]
    at found
  cases found
  rw [passes] at fails
  cases fails

theorem not_mem_ids_resolve {id : RecordId}
    (absent : cabinet.get? id = none) (ids : List RecordId) :
    id ∉ Roll.ids (cabinet.resolve ids) := by
  intro listed
  obtain ⟨record, member, rfl⟩ := List.mem_map.mp listed
  rw [consistent.get?_of_mem_resolve member] at absent
  cases absent

end Cabinet.Consistent

namespace Store

theorem deleteWhere_fst {store : Store} (consistent : store.cabinet.Consistent)
    (test : Record → Bool) :
    (store.deleteWhere test).1 =
      Roll.ids (store.cabinet.records.filter test) := by
  induction store with
  | memory cabinet => exact (consistent.map_id_filter_records test).symm
  | onFile filed => rfl
  | watched journal store ih => exact ih consistent

theorem cabinet_deleteWhere {store : Store}
    (consistent : store.cabinet.Consistent) (test : Record → Bool) :
    (store.deleteWhere test).2.cabinet =
      (store.cabinet.deleteWhere test).2 :=
  cabinet_after consistent (.deleteWhere test)

end Store

theorem Engine.execute_delete (engine : Engine) (store : Store) {text : String}
    {condition : Condition}
    (reads : Statement.read text = .ok (.delete condition)) :
    engine.execute store text =
      (.ok
        { affected := (store.deleteWhere condition.holds).1.length
          ids := (store.deleteWhere condition.holds).1 },
        engine, (store.deleteWhere condition.holds).2) := by
  unfold execute
  rw [reads]
  rfl

namespace Desk

variable {count : Nat}

theorem take_delete (desk : Desk count) (which : Fin count) {text : String}
    {condition : Condition}
    (reads : Statement.read text = .ok (.delete condition)) :
    desk.take (.statement which text) =
      desk.put which
        ((desk.stores which).deleteWhere condition.holds).2 := by
  simp only [take]
  rw [Engine.execute_delete _ _ reads]
  rfl

/-- The ids of the records of a store that a condition holds of, in list
order. -/
def held (desk : Desk count) (which : Fin count) (condition : Condition) :
    List RecordId :=
  Roll.ids ((desk.stores which).cabinet.records.filter condition.holds)

/-- The desk after the delete of what a condition holds of. -/
def deleted (desk : Desk count) (which : Fin count) (text : String) :
    Desk count :=
  desk.take (.statement which (deleteText text))

/-- What a delete answers, and what is seen of its store afterwards. -/
structure DeletesRightly (desk : Desk count) (which : Fin count)
    (text : String) (condition : Condition) : Prop where
  answered : desk.answer which (deleteText text) = .ok
    { affected := (desk.held which condition).length
      ids := desk.held which condition }
  before : desk.answer which "select *" = .ok
    { columns := headers Field.all
      rows := (desk.stores which).cabinet.records.map (project Field.all) }
  after : (desk.deleted which text).answer which "select *" = .ok
    { columns := headers Field.all
      rows := ((desk.stores which).cabinet.records.filter fun record =>
        !condition.holds record).map (project Field.all) }
  absent : ∀ id ∈ desk.held which condition,
    ((desk.deleted which text).stores which).cabinet.get? id = none
  unfound : ∀ id ∈ desk.held which condition,
    let cabinet := ((desk.deleted which text).stores which).cabinet
    (∀ name, id ∉ Roll.ids (cabinet.findByFirstName name)) ∧
      (∀ name, id ∉ Roll.ids (cabinet.findByLastName name)) ∧
      ∀ day, id ∉ Roll.ids (cabinet.findByDateOfBirth day)
  again : (desk.deleted which text).answer which (deleteText text) = .ok {}
  still : (((desk.deleted which text).deleted which text).stores
      which).cabinet.revision =
    ((desk.deleted which text).stores which).cabinet.revision

/-- Selects show what the delete answers and what it leaves. -/
structure Agrees (desk : Desk count) (which : Fin count) (text : String)
    (condition : Condition) : Prop
    extends desk.DeletesRightly which text condition where
  selected : desk.answer which (selectText "id" text) = .ok
    { columns := ["id"]
      rows := (desk.held which condition).map fun id =>
        [Text.showInteger id.toInt] }
  nothing : (desk.deleted which text).answer which (selectText "*" text) = .ok
    { columns := headers Field.all, rows := [] }

section Delete

variable {desk : Desk count} {which : Fin count} {text : String}
  {chain : Chain Assigned}
  (consistent : (desk.stores which).cabinet.Consistent)
  (compiled : readCondition text = .ok (some chain))
include consistent compiled

theorem answer_deleteText :
    desk.answer which (deleteText text) = .ok
      { affected := (desk.held which (some chain)).length
        ids := desk.held which (some chain) } := by
  rw [answer, Engine.execute_delete _ _ (read_deleteText compiled),
    Store.deleteWhere_fst consistent]
  rfl

theorem cabinet_deleted :
    ((desk.deleted which text).stores which).cabinet =
      ((desk.stores which).cabinet.deleteWhere
        (Condition.holds (some chain))).2 := by
  rw [deleted, take_delete desk which (read_deleteText compiled), stores_put,
    if_pos rfl, Store.cabinet_deleteWhere consistent]

theorem held_deleted :
    (desk.deleted which text).held which (some chain) = [] := by
  rw [held, cabinet_deleted consistent compiled,
    consistent.records_deleteWhere, List.filter_filter]
  simp [Roll.ids]

theorem consistent_deleted :
    ((desk.deleted which text).stores which).cabinet.Consistent := by
  rw [cabinet_deleted consistent compiled]
  exact consistent.after (.deleteWhere _)

end Delete

variable {digest : String → UInt64} {texts : String → Prop}
  {desk : Desk count} {which : Fin count} {text : String}
  {chain : Chain Assigned}

theorem Sound.deleted (sound : desk.Sound digest texts)
    (compiled : readCondition text = .ok (some chain)) :
    (desk.deleted which text).Sound digest texts := by
  rw [Desk.deleted, take_delete desk which (read_deleteText compiled)]
  exact sound.put ((desk.stores which).after_advances (.deleteWhere _))

theorem Sound.deletesRightly (sound : desk.Sound digest texts)
    (consistent : (desk.stores which).cabinet.Consistent)
    (compiled : readCondition text = .ok (some chain)) :
    desk.DeletesRightly which text (some chain) := by
  have cabinet := cabinet_deleted consistent compiled
  have next := consistent_deleted consistent compiled
  have left := held_deleted consistent compiled
  have absent : ∀ id ∈ desk.held which (some chain),
      ((desk.deleted which text).stores which).cabinet.get? id = none := by
    intro id member
    rw [cabinet]
    exact consistent.get?_deleteWhere _ member
  constructor
  case answered => exact answer_deleteText consistent compiled
  case before => exact sound.answer_selectAll which
  case after =>
    rw [(sound.deleted compiled).answer_selectAll which, cabinet,
      consistent.records_deleteWhere]
  case absent => exact absent
  case unfound =>
    intro id member
    have gone := absent id member
    exact ⟨fun _ => next.not_mem_ids_resolve gone _,
      fun _ => next.not_mem_ids_resolve gone _,
      fun _ => next.not_mem_ids_resolve gone _⟩
  case again => rw [answer_deleteText next compiled, left]; rfl
  case still =>
    have none : ((desk.deleted which text).stores which).cabinet.records.filter
        (Condition.holds (some chain)) = [] := List.map_eq_nil_iff.mp left
    rw [cabinet_deleted next compiled, next.revision_deleteWhere, none]
    rfl

end Desk

theorem Answer.ofRecords_id (records : List Record) (condition : Condition) :
    ofRecords records [.id] condition =
      { columns := ["id"]
        rows := (Roll.ids (records.filter condition.holds)).map fun id =>
          [Text.showInteger id.toInt] } := by
  rw [ofRecords, Roll.ids, List.map_map]
  rfl

/-- A select that the memo can take for that of the ids asks for the same.  One
that it can take for that of all columns shows all columns, and of no other
records. -/
structure ConditionApart (digest : String → UInt64) (texts : String → Prop)
    (text : String) (condition : Condition) : Prop where
  ids {others : List Field} {test : Condition} :
    Selects texts others test (Text.trim (selectText "id" text)) →
    (Engine.fresh digest).memoKey [.id] condition =
      (Engine.fresh digest).memoKey others test →
    [.id] = others ∧ ∀ record, condition.holds record = test.holds record
  rows {others : List Field} {test : Condition} :
    Selects texts others test (Text.trim (selectText "*" text)) →
    (Engine.fresh digest).memoKey Field.all condition =
      (Engine.fresh digest).memoKey others test →
    Field.all = others ∧ ∀ record, test.holds record → condition.holds record

/-- The memo tells the selects of all conditions from the other ones. -/
def ConditionsApart (digest : String → UInt64) (texts : String → Prop) :
    Prop :=
  ∀ (text : String) (chain : Chain Assigned),
    texts (selectText "id" text) → texts (selectText "*" text) →
    readCondition text = .ok (some chain) →
    ConditionApart digest texts text (some chain)

/-- Whatever has happened at a desk, selects and deletes agree on all
conditions. -/
def AgreesOnConditions (digest : String → UInt64) (texts : String → Prop) :
    Prop :=
  ∀ (count : Nat) (stores : Fin count → Store),
    Function.Injective (fun which => (stores which).cabinet.serial) →
    (∀ which, (stores which).cabinet.Consistent) →
    ∀ turns : List (Turn count), (∀ turn ∈ turns, turn.Within texts) →
    ∀ (which : Fin count) (text : String) (chain : Chain Assigned),
      texts (selectText "id" text) → texts (selectText "*" text) →
      readCondition text = .ok (some chain) →
      (turns.foldl Desk.take ⟨.fresh digest, stores⟩).Agrees which text
        (some chain)

variable {digest : String → UInt64} {texts : String → Prop}

theorem Desk.Sound.agrees {count : Nat} {desk : Desk count}
    (sound : desk.Sound digest texts) {which : Fin count} {text : String}
    {chain : Chain Assigned}
    (consistent : (desk.stores which).cabinet.Consistent)
    (compiled : readCondition text = .ok (some chain))
    (apart : ConditionApart digest texts text (some chain)) :
    desk.Agrees which text (some chain) := by
  refine ⟨sound.deletesRightly consistent compiled, ?_, ?_⟩
  · have answered := sound.answer_of_alone which apart.ids
      (read_selectIds compiled)
    rw [answered, Answer.ofRecords_id]
    rfl
  · obtain ⟨others, test, alike, answered⟩ :=
      (sound.deleted compiled).answer_cases which (read_selectStar compiled)
    have shown : Field.all = others ∧ ∀ record, test.holds record →
        Condition.holds (some chain) record := by
      rcases alike with ⟨rfl, rfl⟩ | ⟨selects, place⟩
      · exact ⟨rfl, fun _ passes => passes⟩
      · exact apart.rows selects place
    obtain ⟨rfl, narrow⟩ := shown
    have none : ((desk.deleted which text).stores which).cabinet.records.filter
        test.holds = [] := by
      apply List.filter_eq_nil_iff.mpr
      intro record member passes
      rw [cabinet_deleted consistent compiled,
        consistent.records_deleteWhere] at member
      have fails := (List.mem_filter.mp member).2
      simp [narrow record passes] at fails
    rw [answered, Answer.ofRecords, none]
    rfl

theorem AgreesOnConditions.of_apart (apart : ConditionsApart digest texts) :
    AgreesOnConditions digest texts := by
  intro count stores serials consistent turns within which text chain ids rows
    compiled
  have sound : (turns.foldl Desk.take ⟨.fresh digest, stores⟩).Sound digest
      texts := (Desk.Sound.fresh digest texts serials).foldl_take turns within
  exact sound.agrees (Desk.consistent_foldl_take consistent turns which)
    compiled (apart text chain ids rows compiled)

theorem ConditionsApart.of_tellsApart (tells : TellsApart digest texts) :
    ConditionsApart digest texts := by
  intro text chain ids rows compiled
  constructor
  · intro others test selects place
    exact tells ⟨_, ids, read_selectIds compiled⟩ selects place
  · intro others test selects place
    obtain ⟨same, holds⟩ :=
      tells ⟨_, rows, read_selectStar compiled⟩ selects place
    refine ⟨same, fun record passes => ?_⟩
    rw [holds]
    exact passes

/-- A desk with one cabinet in memory. -/
def Desk.ofCabinet (digest : String → UInt64) (cabinet : Cabinet) : Desk 1 :=
  ⟨.fresh digest, fun _ => .memory cabinet⟩

section Converse

variable {text firstText : String} {chain : Chain Assigned}
  {others : List Field} {test : Condition} {shown : String}
  {cabinet : Cabinet}

theorem Desk.stores_after_select
    (first : Statement.read firstText = .ok (.select others test shown)) :
    ((ofCabinet digest cabinet).take (.statement 0 firstText)).stores 0 =
      .memory cabinet := by
  rw [take_select _ _ first]
  rfl

theorem Desk.deleted_eq_self {desk : Desk 1}
    (memory : desk.stores 0 = .memory cabinet)
    (compiled : readCondition text = .ok (some chain))
    (none : cabinet.matching (Condition.holds (some chain)) = []) :
    desk.deleted 0 text = desk := by
  have unchanged : ((desk.stores 0).deleteWhere
      (Condition.holds (some chain))).2 = desk.stores 0 := by
    rw [memory]
    simp only [Store.deleteWhere, Store.carry, Cabinet.deleteWhere, none,
      List.foldl_nil]
  rw [deleted, take_delete desk 0 (read_deleteText compiled), unchanged,
    put_self]

variable (agrees : AgreesOnConditions digest texts)
  (ids : texts (selectText "id" text)) (rows : texts (selectText "*" text))
  (compiled : readCondition text = .ok (some chain))
  (given : texts firstText)
include agrees ids rows compiled given

theorem agrees_after_select (consistent : cabinet.Consistent) :
    ((Desk.ofCabinet digest cabinet).take (.statement 0 firstText)).Agrees 0
      text (some chain) :=
  agrees 1 (fun _ => .memory cabinet) (fun _ _ _ => Subsingleton.elim _ _)
    (fun _ => consistent) [.statement 0 firstText]
    (by simpa [Turn.Within] using given) 0 text chain ids rows compiled

end Converse

theorem ConditionsApart.of_agrees (agrees : AgreesOnConditions digest texts) :
    ConditionsApart digest texts := by
  intro text chain ids rows compiled
  constructor
  · intro others test selects place
    obtain ⟨firstText, given, first⟩ := selects.exists_text
    have alike : ∀ record, others = [.id] ∧
        test.holds record = Condition.holds (some chain) record := by
      intro record
      let cabinet := ((Cabinet.empty .acceptAll 0).create record false).2
      have consistent : cabinet.Consistent :=
        (Cabinet.Consistent.empty .acceptAll 0).create record false
      have kept : cabinet.records = [record] :=
        Desk.records_create_empty record 0
      have right := (agrees_after_select agrees ids rows compiled given
        consistent).selected
      rw [Desk.held, Desk.stores_after_select first, ← Answer.ofRecords_id]
        at right
      have answered := Desk.answer_after_select digest first
        (read_selectIds compiled) place.symm fun _ => .memory cabinet
      have same := Except.ok.inj (answered.symm.trans right)
      rw [Store.cabinet, kept] at same
      exact Answer.same_of_ofRecords same
    exact ⟨(alike default).1.symm, fun record => (alike record).2.symm⟩
  · intro others test selects place
    obtain ⟨firstText, given, first⟩ := selects.exists_text
    have answers {cabinet : Cabinet} (consistent : cabinet.Consistent)
        (none : cabinet.records.filter (Condition.holds (some chain)) = []) :
        Answer.ofRecords cabinet.records others test =
          { columns := headers Field.all, rows := [] } := by
      have right := (agrees_after_select agrees ids rows compiled given
        consistent).nothing
      have unmatched : cabinet.matching (Condition.holds (some chain)) = [] := by
        rw [← consistent.map_id_filter_records, none, List.map_nil]
      rw [Desk.deleted_eq_self (Desk.stores_after_select first) compiled
        unmatched] at right
      have answered := Desk.answer_after_select digest first
        (read_selectStar compiled) place.symm fun _ => .memory cabinet
      exact Except.ok.inj (answered.symm.trans right)
    constructor
    · have columns := congrArg Answer.columns
        (answers (.empty .acceptAll 0) rfl)
      exact (List.map_injective_iff.mpr Field.name_injective columns).symm
    · intro record passes
      by_contra fails
      have kept := Desk.records_create_empty record 0
      have shown := congrArg Answer.rows
        (answers ((Cabinet.Consistent.empty .acceptAll 0).create record false)
          (by rw [kept]; simp [fails]))
      rw [kept] at shown
      simp [Answer.ofRecords, passes] at shown

/-- Selects and deletes agree on all conditions exactly as long as the memo
tells the selects of conditions from the others, and so for every digest as
long as no text has white space around it.  What a delete answers and leaves
behind is right whatever the memo does.  Only a blank text, which is a
condition by itself, makes no delete. -/
theorem agreesOnConditions_iff_conditionsApart (digest : String → UInt64)
    (texts : String → Prop) :
    (AgreesOnConditions digest texts ↔ ConditionsApart digest texts) ∧
      ((∀ text, texts text → Text.trim text = text) →
        AgreesOnConditions digest texts) ∧
      (∀ (count : Nat) (stores : Fin count → Store),
        Function.Injective (fun which => (stores which).cabinet.serial) →
        (∀ which, (stores which).cabinet.Consistent) →
        ∀ (turns : List (Turn count)) (which : Fin count) (text : String)
          (chain : Chain Assigned), readCondition text = .ok (some chain) →
          (turns.foldl Desk.take ⟨.fresh digest, stores⟩).DeletesRightly which
            text (some chain)) ∧
      ∀ text, readCondition text = .ok none →
        ∃ failure, Statement.read (deleteText text) =
          .error (.malformed failure) := by
  refine ⟨⟨.of_agrees, .of_apart⟩, ?_, ?_, fun _ => read_deleteText_blank⟩
  · intro trimmed
    exact .of_apart (.of_tellsApart (TellsApart.of_trimmed trimmed digest))
  · intro count stores serials consistent turns which text chain compiled
    have sound := (Desk.Sound.fresh digest _ serials).foldl_take_any turns
    exact sound.deletesRightly
      (Desk.consistent_foldl_take consistent turns which) compiled

/-- The select of the ids for the name with the tabs shows a record that the
delete for this name does not find. -/
theorem tabbedName_selected_not_deleted :
    let text := "firstname = " ++ tabbedName
    let desk := twinDesk.take (.statement 0 (selectByFirstName twinName))
    readCondition text =
        .ok (some ⟨⟨.firstName, .text tabbedName, tabbedName⟩, []⟩) ∧
      desk.answer 0 (selectText "id" text) =
        .ok { columns := ["id"], rows := [["1"]] } ∧
      desk.answer 0 (deleteText text) = .ok {} ∧
      ¬AgreesOnConditions Fingerprint.ofText fun _ => True := by
  intro text desk
  let chain : Chain Assigned :=
    ⟨⟨.firstName, .text tabbedName, tabbedName⟩, []⟩
  let other : Condition := some ⟨⟨.firstName, .text twinName, twinName⟩, []⟩
  have compiled : readCondition text = .ok (some chain) := by
    decide +kernel
  have first : Statement.read (selectByFirstName twinName) =
      .ok (.select [.id] other (Text.trim (selectText "id" text))) := by
    decide +kernel
  have place :
      (Engine.fresh Fingerprint.ofText).memoKey [.id] other =
        (Engine.fresh Fingerprint.ofText).memoKey [.id] (some chain) := by
    decide +kernel
  have listed : Answer.ofRecords (twinDesk.stores 0).cabinet.records [.id]
      other = { columns := ["id"], rows := [["1"]] } := by
    decide +kernel
  have selected := Desk.answer_after_select Fingerprint.ofText first
    (read_selectIds compiled) place twinDesk.stores
  have fresh : (⟨.fresh Fingerprint.ofText, twinDesk.stores⟩ : Desk 1) =
      twinDesk := rfl
  rw [listed, fresh] at selected
  have kept : desk.stores = twinDesk.stores := by
    have taken : desk = _ := Desk.take_select twinDesk 0 first
    rw [taken]
  have unheld : desk.held 0 (some chain) = [] := by
    rw [Desk.held, kept]
    decide +kernel
  have consistent : (desk.stores 0).cabinet.Consistent := by
    rw [kept]
    exact (Cabinet.Consistent.empty .acceptAll 0).create _ _
  have deleted : desk.answer 0 (deleteText text) = .ok {} := by
    rw [Desk.answer_deleteText consistent compiled, unheld]
    rfl
  refine ⟨compiled, selected, deleted, ?_⟩
  intro agrees
  have apart := ConditionsApart.of_agrees agrees text chain trivial trivial
    compiled
  have same := (apart.ids ⟨_, trivial, first⟩ place.symm).2
    { firstName := twinName }
  exact absurd same (by decide +kernel)

end Cardfile
