import Cardfile.Proofs.Mirror
import Cardfile.Proofs.Roster
import Cardfile.Proofs.Storage.StorageForm

/-!
# Reopening

A store that is closed and opened again starts from the roll of its file.  It
then lists the records of the roll in the order of the roll, and its file is a
mirror again, because stored forms are stored as they are.
-/

namespace Cardfile

open Storage

namespace Cabinet.Consistent

variable {cabinet : Cabinet}

theorem order_foldl_merge (consistent : cabinet.Consistent)
    {roll : List Record}
    (distinct : (cabinet.order ++ Roll.ids roll).Nodup) :
    (roll.foldl Cabinet.merge cabinet).order =
      cabinet.order ++ Roll.ids roll := by
  induction roll generalizing cabinet with
  | nil => simp [Roll.ids]
  | cons record roll ih =>
      have fresh : record.id ∉ cabinet.order := by
        intro member
        exact List.disjoint_of_nodup_append distinct member
          List.mem_cons_self
      have order : (cabinet.merge record).order =
          cabinet.order ++ [record.id] := by
        rw [consistent.order_merge, if_neg fresh]
      have shifted : (cabinet.merge record).order ++ Roll.ids roll =
          cabinet.order ++ Roll.ids (record :: roll) := by
        rw [order, List.append_assoc]
        rfl
      rw [List.foldl_cons,
        ih (consistent.merge record) (shifted ▸ distinct), shifted]

theorem get?_foldl_merge (consistent : cabinet.Consistent)
    {roll : List Record} (distinct : (Roll.ids roll).Nodup) (id : RecordId) :
    (roll.foldl Cabinet.merge cabinet).get? id =
      (Roll.find? roll id).or (cabinet.get? id) := by
  induction roll generalizing cabinet with
  | nil => rfl
  | cons record roll ih =>
      obtain ⟨absent, distinct⟩ := List.nodup_cons.mp distinct
      rw [List.foldl_cons, ih (consistent.merge record) distinct,
        consistent.get?_merge, Roll.find?_cons]
      split
      · next same =>
          rw [(Roll.find?_eq_none roll).mpr (same ▸ absent)]
          rfl
      · rfl

end Cabinet.Consistent

namespace FiledCabinet

/-- A cabinet that is opened on rows of slots takes over what can be seen of
them. -/
theorem ofFile_of_rows {bytes : List UInt8} {held : List (Option Record)}
    {hidden : List Record} (rows : Rows bytes held)
    (hides : Hides held (visible held) hidden) (cabinet : Cabinet) :
    ∃ opened, ofFile (.ofBytes bytes) cabinet = .ok opened ∧
      opened.file.Keeps (live (visible held)) hidden ∧
      opened.cabinet = (cabinet.restore (live (visible held))).2 := by
  have rows : Rows (RecordFile.ofBytes bytes).bytes.toList held := rows
  obtain ⟨outcome, loaded⟩ := RecordFile.charted_load rows hides
  simp only [ofFile]
  generalize (RecordFile.ofBytes bytes).load = result at outcome loaded ⊢
  obtain ⟨_, file⟩ := result
  cases outcome
  exact ⟨_, rfl, ⟨_, loaded, rfl⟩, rfl⟩

/-- A cabinet that is opened on a file lists the roll of the file. -/
theorem ofFile_of_files {file : RecordFile} {roll : List Record}
    (files : file.Files roll)
    (stable : ∀ id form, Roll.find? roll id = some form →
      stored? form = some form)
    (validator : Validator) (serial : Nat) :
    ∃ opened,
      ofFile (.ofBytes file.bytes.toList) (.empty validator serial) =
        .ok opened ∧
      opened.Mirrored roll ∧ opened.cabinet.order = Roll.ids roll ∧
      opened.cabinet.records = roll := by
  obtain ⟨held, rows, hides, rfl⟩ := files.visible_rows
  obtain ⟨opened, opens, filesAgain, taken⟩ :=
    ofFile_of_rows rows hides (.empty validator serial)
  have distinct := filesAgain.distinct
  have empty := Cabinet.Consistent.empty validator serial
  have kept : opened.cabinet.get? = Roll.find? (live (visible held)) := by
    funext id
    rw [taken, Cabinet.get?_restore, empty.get?_foldl_merge distinct,
      Cabinet.get?_empty, Option.or_none]
  have order : opened.cabinet.order = Roll.ids (live (visible held)) := by
    rw [taken, Cabinet.order_restore, empty.order_foldl_merge]
    · rfl
    · exact distinct
  refine ⟨opened, opens, ⟨?_, filesAgain, ?_⟩, order, ?_⟩
  · rw [taken]
    exact empty.after (.restore _)
  · intro id
    rw [kept]
    cases found : Roll.find? (live (visible held)) id with
    | none => rfl
    | some form => rw [Option.map_some, Option.map_some, stable id form found]
  · rw [Cabinet.records, Cabinet.resolve, order, kept,
      Roll.filterMap_find? _ distinct]

/-- A cabinet without records and its file without bytes. -/
def blank (validator : Validator) (serial : Nat) : FiledCabinet where
  cabinet := .empty validator serial
  file := .ofBytes []

/-- The filed cabinet after a run of changes on an empty file. -/
def run (validator : Validator) (serial : Nat) (changes : List Change) :
    FiledCabinet :=
  changes.foldl after (blank validator serial)

theorem ofFile_nil (validator : Validator) (serial : Nat) :
    ofFile (.ofBytes []) (.empty validator serial) =
      .ok (blank validator serial) := rfl

theorem mirrored_blank (validator : Validator) (serial : Nat) :
    (blank validator serial).Mirrored [] := by
  refine ⟨.empty validator serial, RecordFile.files_ofBytes_nil, ?_⟩
  intro id
  rw [blank, Cabinet.get?_empty]
  rfl

theorem Mirrored.reopen {filed : FiledCabinet} {roll : List Record}
    (mirrored : filed.Mirrored roll) (validator : Validator) (serial : Nat) :
    ∃ again,
      ofFile (.ofBytes filed.file.bytes.toList) (.empty validator serial) =
        .ok again ∧
      again.Mirrored roll ∧ again.cabinet.order = Roll.ids roll ∧
      again.cabinet.records = roll :=
  ofFile_of_files mirrored.files
    (fun _ _ found => mirrored.agrees.stored?_eq_self found) validator serial

theorem Mirrored.perm {filed : FiledCabinet} {roll : List Record}
    (mirrored : filed.Mirrored roll) :
    roll.Perm (filed.cabinet.order.filterMap (Roll.find? roll)) := by
  have ids : (Roll.ids roll).Perm filed.cabinet.order := by
    refine (List.perm_ext_iff_of_nodup mirrored.files.distinct
      mirrored.consistent.listedOnce).mpr ?_
    intro id
    rw [mirrored.agrees.mem_ids, mirrored.consistent.mem_order]
  have listed := ids.filterMap (Roll.find? roll)
  rwa [Roll.filterMap_find? roll mirrored.files.distinct] at listed

/-- The filed cabinets that changes and reopenings lead to from an empty file,
with any validators, as long as all records that are written can be encoded.
-/
inductive Reached : FiledCabinet → Prop where
  | opened {filed : FiledCabinet} (validator : Validator) (serial : Nat)
      (opens : ofFile (.ofBytes []) (.empty validator serial) = .ok filed) :
      Reached filed
  | changed {filed : FiledCabinet} (reached : Reached filed)
      (change : Change) (writable : Writable (filed.cabinet.filings change)) :
      Reached (filed.after change)
  | reopened {filed again : FiledCabinet} (reached : Reached filed)
      (validator : Validator) (serial : Nat)
      (opens : ofFile (.ofBytes filed.file.bytes.toList)
        (.empty validator serial) = .ok again) :
      Reached again

theorem Reached.mirrored {filed : FiledCabinet} (reached : filed.Reached) :
    ∃ roll, filed.Mirrored roll := by
  induction reached with
  | opened validator serial opens =>
      cases (ofFile_nil validator serial).symm.trans opens
      exact ⟨[], mirrored_blank validator serial⟩
  | changed _ change writable ih =>
      obtain ⟨roll, mirrored⟩ := ih
      exact ⟨_, mirrored.after change writable⟩
  | reopened _ validator serial opens ih =>
      obtain ⟨roll, mirrored⟩ := ih
      obtain ⟨again, same, mirroredAgain, _⟩ :=
        mirrored.reopen validator serial
      cases same.symm.trans opens
      exact ⟨roll, mirroredAgain⟩

theorem Reached.foldl {filed : FiledCabinet} (reached : filed.Reached)
    (changes : List Change) (writable : Writable
      (trail Cabinet.after Cabinet.filings filed.cabinet changes)) :
    (changes.foldl after filed).Reached := by
  induction changes generalizing filed with
  | nil => exact reached
  | cons change changes ih =>
      obtain ⟨first, later⟩ := writable.append
      obtain ⟨_, mirrored⟩ := reached.mirrored
      rw [← cabinet_after mirrored.consistent change] at later
      exact ih (reached.changed change first) later

section Run

variable {validator : Validator} {serial : Nat} {changes : List Change}
  (writable : Writable (trail Cabinet.after Cabinet.filings
    (.empty validator serial) changes))
include writable

theorem mirrored_refiled :
    (run validator serial changes).Mirrored
      ((trail Cabinet.after Cabinet.filings (.empty validator serial)
        changes).foldl Roll.refile []) :=
  (mirrored_blank validator serial).foldl
    (fun consistent change => cabinet_after consistent change)
    (fun mirrored change => mirrored.after change) changes writable

/-- The file of a run can be opened, and lists what the run filed. -/
theorem run_reopened (anew : Validator) (number : Nat) :
    ∃ again,
      ofFile (.ofBytes (run validator serial changes).file.bytes.toList)
        (.empty anew number) = .ok again ∧
      again.Reached ∧ again.cabinet.Consistent ∧
      again.cabinet.records =
        (trail Cabinet.after Cabinet.filings (.empty validator serial)
          changes).foldl Roll.refile [] := by
  have reached : (run validator serial changes).Reached :=
    (Reached.opened validator serial (ofFile_nil validator serial)).foldl
      changes writable
  obtain ⟨again, opens, mirrored, _, records⟩ :=
    (mirrored_refiled writable).reopen anew number
  exact ⟨again, opens, reached.reopened anew number opens,
    mirrored.consistent, records⟩

end Run

theorem writable_delete (cabinet : Cabinet) (id : RecordId) :
    Writable (cabinet.filings (.delete id)) := by
  simp only [Cabinet.filings]
  rcases cabinet.delete_cases id with ⟨_, failed⟩ | ⟨_, _, deleted⟩
  · simp [Cabinet.deleteFilings, failed, Writable]
  · simp [Cabinet.deleteFilings, deleted, Writable]

/-- Loading the file afresh gives exactly one record for each that is live,
namely what decoding its slot gives, and a store opened on the file lists what
was loaded. -/
theorem load_of_reached {filed : FiledCabinet} (reached : filed.Reached) :
    ∃ forms loaded file,
      List.Forall₂
        (fun record form => form.id = record.id ∧
          ∃ slot, encode record 0 = .ok slot ∧
            decode slot = .ok (some form))
        filed.cabinet.records forms ∧
      (RecordFile.ofBytes filed.file.bytes.toList).load =
        (.ok loaded, file) ∧
      loaded.Perm forms ∧ (loaded.map Record.id).Nodup ∧
      ∀ validator serial, ∃ again,
        ofFile (.ofBytes filed.file.bytes.toList) (.empty validator serial) =
          .ok again ∧
        again.cabinet.records = loaded := by
  obtain ⟨roll, mirrored⟩ := reached.mirrored
  obtain ⟨file, load, _⟩ := mirrored.files.load
  refine ⟨_, roll, file, ?_, load, mirrored.perm, mirrored.files.distinct, ?_⟩
  · refine (mirrored.agrees.forall₂_filterMap _).imp ?_
    intro record form result
    obtain ⟨slot, encoded, _, holding⟩ := decode_encode 0 result
    exact ⟨id_of_stored? result, slot, encoded, holding⟩
  · intro validator serial
    obtain ⟨again, opens, _, _, records⟩ := mirrored.reopen validator serial
    exact ⟨again, opens, records⟩

theorem eq_map_storageForm {records forms : List Record}
    (alike : List.Forall₂
      (fun record form => form.id = record.id ∧
        ∃ slot, encode record 0 = .ok slot ∧ decode slot = .ok (some form))
      records forms) : forms = records.map storageForm := by
  induction alike with
  | nil => rfl
  | cons same _ ih =>
      obtain ⟨_, slot, encoded, decoded⟩ := same
      rw [(decode_of_encode encoded).2] at decoded
      cases decoded
      rw [ih, List.map_cons]

/-- A record is overwritten and gets a new id, and another is replaced. -/
def reworking : List Change :=
  [.create { id := 1, firstName := "Ann" } false,
    .create { id := 2 } false,
    .create { id := 3, firstName := "Eve" } false,
    .edit 3 fun record => { record with points := 5 },
    .edit 3 fun record => { record with id := 4 },
    .create { id := 1, firstName := "Zoë" } false]

/-- The reworked file is reopened, and there another record is deleted. -/
theorem load_of_reopened :
    ∃ again loaded file,
      ofFile
          (.ofBytes (run (fun _ => none) 0 reworking).file.bytes.toList)
          (.empty (fun _ => none) 1) = .ok again ∧
      (again.after (.delete 2)).Reached ∧
      (RecordFile.ofBytes
        (again.after (.delete 2)).file.bytes.toList).load =
          (.ok loaded, file) ∧
      loaded.Perm
        [{ id := 4, firstName := "Eve", points := 5 },
          { id := 1, firstName := "Zo?" }] := by
  have writable : Writable
      (trail Cabinet.after Cabinet.filings (.empty (fun _ => none) 0)
        reworking) := by
    decide +kernel
  obtain ⟨again, opens, reachedAgain, consistent, records⟩ :=
    run_reopened writable (fun _ => none) 1
  have listed : again.cabinet.records =
      [{ id := 2 }, { id := 4, firstName := "Eve", points := 5 },
        { id := 1, firstName := "Zo?" }] := by
    rw [records]
    decide +kernel
  have left : (again.after (.delete 2)).cabinet.records =
      [{ id := 4, firstName := "Eve", points := 5 },
        { id := 1, firstName := "Zo?" }] := by
    have deleted := congrArg (fun result => result.2.records)
      (consistent.delete_roster 2)
    rw [cabinet_after consistent]
    refine deleted.trans ?_
    rw [Cabinet.roster, listed]
    rfl
  have deletes : (again.after (.delete 2)).Reached :=
    reachedAgain.changed _ (writable_delete _ 2)
  obtain ⟨forms, loaded, file, alike, load, perm, _⟩ :=
    load_of_reached deletes
  refine ⟨again, loaded, file, opens, deletes, load, ?_⟩
  rw [eq_map_storageForm alike, left] at perm
  exact perm

end FiledCabinet

end Cardfile
