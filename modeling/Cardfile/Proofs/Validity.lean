import Cardfile.Proofs.Decimal.Order
import Cardfile.Proofs.Reopening
import Cardfile.Proofs.Storage.StorageForm

/-!
# Accepted records read back

A record that a rule set accepts comes back from its slot with the same date,
letter and points, and its number stays between whole bounds.  Only its names
may leave their bounds: they are measured without the blanks around them, and
a slot cuts names, ends them at a zero character and keeps a blank outside
ASCII as a question mark.  What is restored is not checked again.
-/

namespace Cardfile

open Storage

namespace Rules

variable {rules : Rules} {today : Today} {record : Record}

/-- The rule about lengths that two names break first. -/
def nameFault? (rules : Rules) (firstName lastName : String) :
    Option Rejection :=
  if !allowsLength rules.firstName firstName then
    some (.firstNameLength rules.firstName)
  else if !allowsLength rules.lastName lastName then
    some (.lastNameLength rules.lastName)
  else none

/-- What rules ask of a record besides the lengths of its names. -/
structure Bounds (rules : Rules) (latest : Date) (record : Record) :
    Prop where
  born : (record.dateOfBirth.before rules.earliestBirth ||
    latest.before record.dateOfBirth) = false
  counted : (record.number.less (.ofInt rules.number.least) ||
    (Decimal.ofInt rules.number.greatest).less record.number) = false
  lettered : rules.letters.toList.contains record.letter = true
  scored : (decide (record.points < rules.points.least) ||
    decide (rules.points.greatest < record.points)) = false

theorem Bounds.of_check (accepted : rules.check today record = none) :
    rules.Bounds (rules.latest today).date record := by
  simp only [check] at accepted
  split at accepted
  · cases accepted
  split at accepted
  · cases accepted
  split at accepted
  · cases accepted
  next born =>
  split at accepted
  · cases accepted
  next counted =>
  split at accepted
  · cases accepted
  next lettered =>
  split at accepted
  · cases accepted
  next scored =>
  constructor
  · exact Bool.not_eq_true _ ▸ born
  · exact Bool.not_eq_true _ ▸ counted
  · simpa using lettered
  · exact Bool.not_eq_true _ ▸ scored

/-- Within the bounds only a name can be a reason for a rejection. -/
theorem Bounds.check_eq
    (bounds : rules.Bounds (rules.latest today).date record) :
    rules.check today record =
      rules.nameFault? record.firstName record.lastName := by
  simp only [check, bounds.born, bounds.counted, bounds.lettered,
    bounds.scored]
  rfl

theorem Bounds.storageForm {latest : Date}
    (bounds : rules.Bounds latest record) :
    rules.Bounds latest (storageForm record) := by
  obtain ⟨above, below⟩ := Bool.or_eq_false_iff.mp bounds.counted
  have brought := record.number.broughtTo_brought
  constructor
  · exact bounds.born
  · apply Bool.or_eq_false_iff.mpr
    constructor
    · exact (Decimal.broughtTo_ofInt _).not_less brought above
    · exact brought.not_less (Decimal.broughtTo_ofInt _) below
  · exact bounds.lettered
  · exact bounds.scored

end Rules

namespace Storage

/-- Slots that are written one behind the other are rows of storage forms. -/
theorem rows_of_encode {records : List Record} {slots : List (List UInt8)}
    (encoded : List.Forall₂ (fun record slot => encode record 0 = .ok slot)
      records slots) :
    Rows slots.flatten
      (records.map fun record => some (storageForm record)) := by
  induction encoded with
  | nil => exact .nil (by decide)
  | cons first rest ih =>
      obtain ⟨whole, decoded⟩ := decode_of_encode first
      exact .cons whole decoded ih

theorem live_of_slots {records : List Record} {slots : List (List UInt8)}
    (encoded : List.Forall₂ (fun record slot => encode record 0 = .ok slot)
      records slots) (validator : Validator) (serial : Nat) :
    ∃ opened,
      FiledCabinet.ofFile (.ofBytes slots.flatten) (.empty validator serial) =
        .ok opened ∧
      (∀ record ∈ records, (opened.cabinet.get? record.id).isSome) ∧
      ∀ id kept, opened.cabinet.get? id = some kept →
        ∃ record ∈ records, kept = storageForm record := by
  have rows := rows_of_encode encoded
  obtain ⟨hidden, hides⟩ :=
    exists_hides_visible (records.map fun record => some (storageForm record))
  obtain ⟨opened, opens, keeps, taken⟩ :=
    FiledCabinet.ofFile_of_rows rows hides (.empty validator serial)
  have empty := Cabinet.Consistent.empty validator serial
  have lookup (id : RecordId) : opened.cabinet.get? id =
      Roll.find? (live (visible (records.map fun record =>
        some (storageForm record)))) id := by
    rw [taken, Cabinet.get?_restore, empty.get?_foldl_merge keeps.distinct,
      Cabinet.get?_empty, Option.or_none]
  refine ⟨opened, opens, ?_, ?_⟩
  · intro record member
    rw [lookup, Roll.find?_isSome, mem_ids_live_visible]
    apply List.mem_map.mpr
    refine ⟨storageForm record, ?_, rfl⟩
    exact List.mem_filterMap.mpr
      ⟨_, List.mem_map.mpr ⟨record, member, rfl⟩, rfl⟩
  · intro id kept found
    rw [lookup] at found
    have seen := List.mem_of_find?_eq_some found
    have held := hides.perm_live.mem_iff.mpr (List.mem_append_left _ seen)
    obtain ⟨_, member, rfl⟩ := List.mem_filterMap.mp held
    obtain ⟨record, written, same⟩ := List.mem_map.mp member
    exact ⟨record, written, (Option.some.inj same).symm⟩

end Storage

namespace Rules

/-- What the rules say of an accepted record that a slot has kept, if they fix
the latest date of birth. -/
theorem check_storageForm {rules : Rules} {latest : Date}
    (explicit : rules.latestBirth = some latest) {today : Today}
    {record : Record} (accepted : rules.check today record = none)
    (day : Today) :
    rules.check day (storageForm record) =
      rules.nameFault? (storedName record.firstName)
        (storedName record.lastName) := by
  have always (someday : Today) : (rules.latest someday).date = latest := by
    simp only [Rules.latest, explicit]
  have bounds := (Bounds.of_check accepted).storageForm
  rw [always, ← always day] at bounds
  exact bounds.check_eq

/-- With a fixed latest date of birth, what was accepted is rejected when it
is read back exactly if the slot keeps a name that is too short or too long.
Names that the slot keeps as they are give no reason.  A cabinet that is
opened on slots of accepted records rejects for this reason only what it has
taken over. -/
theorem reread_rejected_for_name {rules : Rules} {latest : Date}
    (explicit : rules.latestBirth = some latest) (today day : Today) :
    (∀ record slot, rules.check today record = none →
      encode record 0 = .ok slot →
      decode slot = .ok (some (storageForm record)) ∧
      rules.check day (storageForm record) =
        rules.nameFault? (storedName record.firstName)
          (storedName record.lastName) ∧
      (Plain record.firstName → Plain record.lastName →
        rules.check day (storageForm record) = none)) ∧
    ∀ records slots serial,
      (∀ record ∈ records, rules.check today record = none) →
      List.Forall₂ (fun record slot => encode record 0 = .ok slot)
        records slots →
      ∃ opened,
        FiledCabinet.ofFile (.ofBytes slots.flatten)
          (.empty (rules.validator day) serial) = .ok opened ∧
        (∀ record ∈ records, (opened.cabinet.get? record.id).isSome) ∧
        ∀ id kept, opened.cabinet.get? id = some kept →
          ∃ record ∈ records, kept = storageForm record ∧
            rules.validator day kept =
              rules.nameFault? (storedName record.firstName)
                (storedName record.lastName) := by
  constructor
  · intro record slot accepted encoded
    have judged := check_storageForm explicit accepted day
    constructor
    · exact (decode_of_encode encoded).2
    constructor
    · exact judged
    · intro first last
      rw [judged, first.storedName_eq, last.storedName_eq,
        ← (Bounds.of_check accepted).check_eq, accepted]
  · intro records slots serial accepted encoded
    obtain ⟨opened, opens, listed, taken⟩ :=
      live_of_slots encoded (rules.validator day) serial
    refine ⟨opened, opens, listed, ?_⟩
    intro id kept found
    obtain ⟨record, written, rfl⟩ := taken id kept found
    exact ⟨record, written, rfl,
      check_storageForm explicit (accepted record written) day⟩

/-- The standard rules up to the end of 2020. -/
def untilTwentyTwenty : Rules :=
  { standard with
    latestBirth := some { year := 2020, month := 12, day := 31 } }

/-- A record that the rules accept, with a given first name. -/
def leeNamed (firstName : String) : Record :=
  { id := 1
    firstName := firstName
    lastName := "Lee"
    number := .ofInt 5
    letter := 'A' }

/-- A name with a no-break space before it is kept as one character more. -/
theorem rejected_of_leading_blank :
    let today : Today := { date := Date.epoch }
    let rules := { untilTwentyTwenty with firstName := ⟨1, 3⟩ }
    let record := leeNamed "\u00A0Ann"
    rules.latestBirth = some { year := 2020, month := 12, day := 31 } ∧
      rules.check today record = none ∧
      rules.check today (storageForm record) =
        some (.firstNameLength ⟨1, 3⟩) := by
  intro today rules record
  have accepted : rules.check today record = none := by decide +kernel
  have fits : Fits record := ⟨by decide, by decide⟩
  obtain ⟨slot, encoded, _⟩ := decode_encode 0 (stored?_of_fits fits)
  obtain ⟨reread, _⟩ := @reread_rejected_for_name rules _ rfl today today
  obtain ⟨_, judged, _⟩ := reread record slot accepted encoded
  exact ⟨rfl, accepted, judged.trans (by decide +kernel)⟩

/-- A record with a zero character in its first name is accepted, and what is
restored of it from its slot is rejected by the same rules. -/
theorem rejected_of_zero_in_name :
    let today : Today := { date := Date.epoch }
    let record := leeNamed "A\x00B"
    untilTwentyTwenty.check today record = none ∧
      ∃ slot opened kept, encode record 0 = .ok slot ∧
        decode slot = .ok (some kept) ∧
        FiledCabinet.ofFile (.ofBytes slot)
          (.empty (untilTwentyTwenty.validator today) 0) = .ok opened ∧
        opened.cabinet.get? 1 = some kept ∧
        untilTwentyTwenty.check today kept =
          some (.firstNameLength ⟨2, 60⟩) := by
  intro today record
  have accepted : untilTwentyTwenty.check today record = none := by
    decide +kernel
  have fits : Fits record := ⟨by decide, by decide⟩
  obtain ⟨slot, encoded, _, decoded⟩ :=
    decode_encode 0 (stored?_of_fits fits)
  obtain ⟨opened, opens, listed, taken⟩ :=
    live_of_slots (.cons encoded .nil) (untilTwentyTwenty.validator today) 0
  obtain ⟨kept, live⟩ := Option.isSome_iff_exists.mp
    (listed record List.mem_cons_self)
  obtain ⟨_, only, rfl⟩ := taken record.id kept live
  cases List.mem_singleton.mp only
  rw [List.flatten_singleton] at opens
  exact ⟨accepted, slot, opened, _, encoded, decoded, opens, live,
    by decide +kernel⟩

end Rules

end Cardfile
