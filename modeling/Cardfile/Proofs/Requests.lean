import Cardfile.Proofs.Roster

/-!
# Runs of requests

Changes and questions come to a cabinet in any order, and each is answered.  A
cabinet and its roster give the same answers from the start on.  What is
answered with a fault has changed nothing at all.
-/

namespace Cardfile

open Storage

/-- What a cabinet can be asked: to change, or to tell about itself. -/
inductive Request where
  | change (change : Change)
  | get (id : RecordId)
  | count
  | records
  | snapshot
  | revision

/-- The answer to a request. -/
inductive Reply where
  | created (outcome : Except Fault RecordId)
  | carriedOut (outcome : Except Fault Unit)
  | number (number : Nat)
  | ids (ids : List RecordId)
  | found (record : Option Record)
  | listed (records : List Record)

/-- Whether a reply says that something was not carried out. -/
def Reply.isFault : Reply → Bool
  | .created (.error _) => true
  | .carriedOut (.error _) => true
  | _ => false

namespace Roster

/-- The answer of a roster and the roster afterwards. -/
def respond (validator : Validator) (roster : Roster) :
    Request → Reply × Roster
  | .change (.create record freshId) =>
      (roster.create validator record freshId).map Reply.created id
  | .change (.edit old change) =>
      (roster.edit validator old change).map Reply.carriedOut id
  | .change (.delete old) => (roster.delete old).map Reply.carriedOut id
  | .change (.updateWhere test change) =>
      (roster.updateWhere validator test change).map Reply.number id
  | .change (.deleteWhere test) => (roster.deleteWhere test).map Reply.ids id
  | .change (.restore records) => (roster.restore records).map Reply.number id
  | .get wanted => (.found (roster.find? wanted), roster)
  | .count => (.number roster.records.length, roster)
  | .records => (.listed roster.records, roster)
  | .snapshot => (.listed roster.records, roster)
  | .revision => (.number roster.changes, roster)

end Roster

/-- The answers to a row of requests and the state after them. -/
def converse {σ : Type} (respond : σ → Request → Reply × σ) (state : σ) :
    List Request → List Reply × σ
  | [] => ([], state)
  | request :: requests =>
      let (reply, next) := respond state request
      let (replies, last) := converse respond next requests
      (reply :: replies, last)

theorem converse_keeps {σ : Type} {respond : σ → Request → Reply × σ}
    {invariant : σ → Prop}
    (kept : ∀ state request, invariant state →
      invariant (respond state request).2)
    {state : σ} (holds : invariant state) (requests : List Request) :
    invariant (converse respond state requests).2 := by
  induction requests generalizing state with
  | nil => exact holds
  | cons request requests ih => exact ih (kept state request holds)

/-- If every step is answered alike through a view, so is a row of steps. -/
theorem converse_map {σ τ : Type} {respond : σ → Request → Reply × σ}
    {other : τ → Request → Reply × τ} {view : σ → τ} {invariant : σ → Prop}
    (kept : ∀ state request, invariant state →
      invariant (respond state request).2)
    (follows : ∀ state request, invariant state →
      (respond state request).map id view = other (view state) request)
    {state : σ} (holds : invariant state) (requests : List Request) :
    (converse respond state requests).map id view =
      converse other (view state) requests := by
  induction requests generalizing state with
  | nil => rfl
  | cons request requests ih =>
      have step := follows state request holds
      have rest := ih (kept state request holds)
      simp only [converse, ← step, Prod.map_fst, Prod.map_snd, ← rest, id]
      rfl

namespace Cabinet

/-- The answer of a cabinet and the cabinet afterwards. -/
def respond (cabinet : Cabinet) : Request → Reply × Cabinet
  | .change (.create record freshId) =>
      (cabinet.create record freshId).map Reply.created id
  | .change (.edit old change) =>
      (cabinet.edit old change).map Reply.carriedOut id
  | .change (.delete old) => (cabinet.delete old).map Reply.carriedOut id
  | .change (.updateWhere test change) =>
      (cabinet.updateWhere test change).map Reply.number id
  | .change (.deleteWhere test) => (cabinet.deleteWhere test).map Reply.ids id
  | .change (.restore records) =>
      (cabinet.restore records).map Reply.number id
  | .get wanted => (.found (cabinet.get? wanted), cabinet)
  | .count => (.number cabinet.count, cabinet)
  | .records => (.listed cabinet.records, cabinet)
  | .snapshot => (.listed cabinet.records, cabinet)
  | .revision => (.number cabinet.revision, cabinet)

/-- A consistent cabinet answers as its roster does, and what it shows
afterwards is the roster afterwards. -/
theorem Consistent.respond_roster {cabinet : Cabinet}
    (consistent : cabinet.Consistent)
    (request : Request) :
    (cabinet.respond request).map id roster =
      cabinet.roster.respond cabinet.validator request := by
  cases request with
  | change change =>
      cases change with
      | create record freshId =>
          have step := consistent.create_roster record freshId
          exact congrArg (Prod.map Reply.created id) step
      | edit old change =>
          have step := consistent.edit_roster old change
          exact congrArg (Prod.map Reply.carriedOut id) step
      | delete old =>
          have step := consistent.delete_roster old
          exact congrArg (Prod.map Reply.carriedOut id) step
      | updateWhere test change =>
          have step := consistent.updateWhere_roster test change
          exact congrArg (Prod.map Reply.number id) step
      | deleteWhere test =>
          have step := consistent.deleteWhere_roster test
          exact congrArg (Prod.map Reply.ids id) step
      | restore records =>
          have step := consistent.restore_roster records
          exact congrArg (Prod.map Reply.number id) step
  | get wanted =>
      exact congrArg (fun found => (Reply.found found, cabinet.roster))
        (consistent.find?_roster wanted).symm
  | count =>
      have count : cabinet.count = cabinet.records.length := by
        rw [Cabinet.count, ← consistent.ids_records, Roll.ids,
          List.length_map]
      exact congrArg (fun count => (Reply.number count, cabinet.roster)) count
  | records => rfl
  | snapshot => rfl
  | revision => rfl

theorem respond_snd (cabinet : Cabinet) (request : Request) :
    (∃ change, (cabinet.respond request).2 = cabinet.after change) ∨
      (cabinet.respond request).2 = cabinet := by
  cases request with
  | change change =>
      left
      refine ⟨change, ?_⟩
      cases change <;> rfl
  | get | count | records | snapshot | revision => exact .inr rfl

/-- What every request keeps. -/
structure Serves (validator : Validator) (cabinet : Cabinet) : Prop where
  consistent : cabinet.Consistent
  validator : cabinet.validator = validator

theorem Serves.respond {validator : Validator} {cabinet : Cabinet}
    (serves : Serves validator cabinet) (request : Request) :
    Serves validator (cabinet.respond request).2 := by
  rcases cabinet.respond_snd request with ⟨change, changed⟩ | same
  · rw [changed]
    constructor
    · exact serves.consistent.after change
    · rw [(cabinet.after_advances change).validator, serves.validator]
  · rw [same]
    exact serves

theorem respond_of_isFault (cabinet : Cabinet) {request : Request}
    (fault : (cabinet.respond request).1.isFault = true) :
    (cabinet.respond request).2 = cabinet := by
  cases request with
  | change change =>
      cases change with
      | create record freshId =>
          simp only [respond] at fault ⊢
          rcases cabinet.create_cases record freshId with
            ⟨_, _, failed⟩ | ⟨_, entered⟩
          · rw [failed]
            rfl
          · rw [entered] at fault
            cases fault
      | edit old change =>
          simp only [respond] at fault ⊢
          rcases cabinet.edit_cases old change with
            ⟨_, failed⟩ | ⟨_, _, _, _, failed⟩ | ⟨_, _, _, _, edited⟩
          · rw [failed]
            rfl
          · rw [failed]
            rfl
          · rw [edited] at fault
            cases fault
      | delete old =>
          simp only [respond] at fault ⊢
          rcases cabinet.delete_cases old with
            ⟨_, failed⟩ | ⟨_, _, deleted⟩
          · rw [failed]
            rfl
          · rw [deleted] at fault
            cases fault
      | updateWhere | deleteWhere | restore => cases fault
  | get | count | records | snapshot | revision => rfl

/-- From an empty cabinet on, all requests are answered as by a plain list of
records and a count of changes.  No two records of the list ever have the same
id, and a request that is answered with a fault leaves the whole cabinet as it
was. -/
theorem converse_roster (validator : Validator) (serial : Nat)
    (requests : List Request) :
    let talk := converse respond (empty validator serial) requests
    talk.map id roster =
        converse (Roster.respond validator) .empty requests ∧
      (Roll.ids talk.2.roster.records).Nodup ∧
      ∀ request, (talk.2.respond request).1.isFault = true →
        (talk.2.respond request).2 = talk.2 := by
  have start : Serves validator (empty validator serial) :=
    ⟨.empty validator serial, rfl⟩
  have kept : ∀ cabinet request, Serves validator cabinet →
      Serves validator (respond cabinet request).2 :=
    fun _ request serves => serves.respond request
  refine ⟨?_, ?_, ?_⟩
  · refine converse_map kept ?_ start requests
    intro cabinet request serves
    rw [serves.consistent.respond_roster, serves.validator]
  · have last := converse_keeps kept start requests
    exact last.consistent.nodup_ids_records
  · intro request fault
    exact respond_of_isFault _ fault

end Cabinet

end Cardfile
