import Mathlib.Data.List.Basic
import Cardfile.Proofs.Storage.Roll
import Cardfile.Proofs.Storage.Rows

/-!
# Hidden records

A file may hold several records with one id.  A reader goes by the last of
them, which hides the others: no place is remembered for these, so that
nothing is ever written over them.
-/

namespace Cardfile.Storage

/-- The entries of a row of slots without the records that another one behind
them hides. -/
def visible : List (Option Record) → List (Option Record)
  | [] => []
  | none :: entries => none :: visible entries
  | some record :: entries =>
      (if record.id ∈ Roll.ids (live entries) then none else some record) ::
        visible entries

/-- The slots hold what can be seen of them, and hidden records besides. -/
inductive Hides :
    List (Option Record) → List (Option Record) → List Record → Prop where
  | nil : Hides [] [] []
  | seen {held entries : List (Option Record)} {hidden : List Record}
      (entry : Option Record) (rest : Hides held entries hidden) :
      Hides (entry :: held) (entry :: entries) hidden
  | hidden {held entries : List (Option Record)} {hidden : List Record}
      (record : Record) (rest : Hides held entries hidden) :
      Hides (some record :: held) (none :: entries) (record :: hidden)

theorem Hides.self (entries : List (Option Record)) :
    Hides entries entries [] := by
  induction entries with
  | nil => exact .nil
  | cons entry entries ih => exact .seen entry ih

theorem exists_hides_visible (entries : List (Option Record)) :
    ∃ hidden, Hides entries (visible entries) hidden := by
  induction entries with
  | nil => exact ⟨[], .nil⟩
  | cons entry entries ih =>
      obtain ⟨hidden, rest⟩ := ih
      cases entry with
      | none => exact ⟨hidden, .seen none rest⟩
      | some record =>
          simp only [visible]
          split
          · exact ⟨record :: hidden, .hidden record rest⟩
          · exact ⟨hidden, .seen (some record) rest⟩

theorem live_visible_cons (record : Record)
    (entries : List (Option Record)) :
    live (visible (some record :: entries)) =
      if record.id ∈ Roll.ids (live entries) then live (visible entries)
      else record :: live (visible entries) := by
  simp only [visible]
  split <;> rfl

theorem mem_ids_live_visible (entries : List (Option Record))
    (id : RecordId) :
    id ∈ Roll.ids (live (visible entries)) ↔
      id ∈ Roll.ids (live entries) := by
  induction entries with
  | nil => rfl
  | cons entry entries ih =>
      cases entry with
      | none => exact ih
      | some record =>
          have whole : Roll.ids (live (some record :: entries)) =
              record.id :: Roll.ids (live entries) := rfl
          rw [live_visible_cons, whole, List.mem_cons]
          split
          · next again =>
              rw [ih]
              constructor
              · exact Or.inr
              · rintro (rfl | later)
                · exact again
                · exact later
          · rw [Roll.ids, List.map_cons, List.mem_cons]
            exact or_congr_right ih

theorem nodup_ids_live_visible (entries : List (Option Record)) :
    (Roll.ids (live (visible entries))).Nodup := by
  induction entries with
  | nil => exact List.nodup_nil
  | cons entry entries ih =>
      cases entry with
      | none => exact ih
      | some record =>
          rw [live_visible_cons]
          split
          · exact ih
          · next last =>
              rw [← mem_ids_live_visible] at last
              exact List.nodup_cons.mpr ⟨last, ih⟩

theorem visible_eq_self {entries : List (Option Record)}
    (distinct : (Roll.ids (live entries)).Nodup) :
    visible entries = entries := by
  induction entries with
  | nil => rfl
  | cons entry entries ih =>
      cases entry with
      | none => rw [visible, ih distinct]
      | some record =>
          obtain ⟨absent, distinct⟩ := List.nodup_cons.mp distinct
          rw [visible, ih distinct]
          exact congrArg (· :: entries) (if_neg absent)

namespace Hides

variable {held entries : List (Option Record)} {hidden : List Record}

theorem length_eq (hides : Hides held entries hidden) :
    held.length = entries.length := by
  induction hides with
  | nil => rfl
  | seen entry rest ih => simp [ih]
  | hidden record rest ih => simp [ih]

theorem eq_of_nil (hides : Hides held entries []) : held = entries := by
  generalize none : ([] : List Record) = hidden at hides
  induction hides with
  | nil => rfl
  | seen entry rest ih => rw [ih none]
  | hidden record rest => cases none

/-- A record that can be seen is there, and another entry may take its
place. -/
theorem focus (hides : Hides held entries hidden) {index : Nat}
    {record : Record} (found : entries[index]? = some (some record)) :
    held[index]? = some (some record) ∧
      ∀ entry, Hides (held.set index entry) (entries.set index entry)
        hidden := by
  induction hides generalizing index with
  | nil => cases found
  | seen entry rest ih =>
      cases index with
      | zero => exact ⟨found, fun other => .seen other rest⟩
      | succ index =>
          obtain ⟨there, exchange⟩ := ih found
          exact ⟨there, fun other => .seen entry (exchange other)⟩
  | hidden veiled rest ih =>
      cases index with
      | zero => cases found
      | succ index =>
          obtain ⟨there, exchange⟩ := ih found
          exact ⟨there, fun other => .hidden veiled (exchange other)⟩

theorem append (hides : Hides held entries hidden) (entry : Option Record) :
    Hides (held ++ [entry]) (entries ++ [entry]) hidden := by
  induction hides with
  | nil => exact .seen entry .nil
  | seen first rest ih => exact .seen first ih
  | hidden record rest ih => exact .hidden record ih

theorem perm_live (hides : Hides held entries hidden) :
    (live held).Perm (live entries ++ hidden) := by
  induction hides with
  | nil => exact .nil
  | seen entry rest ih =>
      cases entry with
      | none => exact ih
      | some record => exact ih.cons record
  | hidden record rest ih =>
      exact (ih.cons record).trans List.perm_middle.symm

theorem mem_ids (hides : Hides held entries hidden) (id : RecordId) :
    id ∈ Roll.ids (live held) ↔
      id ∈ Roll.ids (live entries) ∨ id ∈ Roll.ids hidden := by
  rw [Roll.ids, (hides.perm_live.map Record.id).mem_iff, List.map_append,
    List.mem_append]
  rfl

/-- What a reader does not see are the ids that are repeated. -/
theorem mem_ids_hidden (hides : Hides held (visible held) hidden)
    (id : RecordId) :
    id ∈ Roll.ids hidden ↔ 2 ≤ (Roll.ids (live held)).count id := by
  have total : (Roll.ids (live held)).count id =
      (Roll.ids (live (visible held))).count id +
        (Roll.ids hidden).count id := by
    rw [Roll.ids, (hides.perm_live.map Record.id).count_eq, List.map_append,
      List.count_append]
    rfl
  have once := List.nodup_iff_count_le_one.mp
    (nodup_ids_live_visible held) id
  rw [← List.count_pos_iff, total]
  constructor
  · intro some
    have seen : 0 < (Roll.ids (live (visible held))).count id := by
      rw [List.count_pos_iff, mem_ids_live_visible, hides.mem_ids]
      exact .inr (List.count_pos_iff.mp some)
    omega
  · intro twice
    omega

end Hides

/-- The bytes hold entries that can be seen, and hidden records besides. -/
def Shows (bytes : List UInt8) (entries : List (Option Record))
    (hidden : List Record) : Prop :=
  ∃ held, Rows bytes held ∧ Hides held entries hidden

namespace Shows

variable {bytes : List UInt8} {entries : List (Option Record)}
  {hidden : List Record}

/-- The slot of a record that can be seen, which may be exchanged. -/
theorem focus (shows : Shows bytes entries hidden) {index : Nat}
    {record : Record} (found : entries[index]? = some (some record)) :
    ∃ before slot behind,
      bytes = before ++ (slot ++ behind) ∧
      before.length = index * slotSize ∧
      slot.length = slotSize ∧ decode slot = .ok (some record) ∧
      ∀ {other : List UInt8} {entry : Option Record},
        other.length = slotSize → decode other = .ok entry →
        Shows (before ++ (other ++ behind)) (entries.set index entry)
          hidden := by
  obtain ⟨held, rows, hides⟩ := shows
  obtain ⟨there, exchange⟩ := hides.focus found
  obtain ⟨before, slot, behind, parted, place, whole, reads, exchanged⟩ :=
    rows.focus there
  refine ⟨before, slot, behind, parted, place, whole, reads, ?_⟩
  intro other entry otherWhole otherHolds
  exact ⟨_, exchanged otherWhole otherHolds, exchange entry⟩

theorem extend (shows : Shows bytes entries hidden) :
    ∃ before tail,
      bytes = before ++ tail ∧
      before.length = entries.length * slotSize ∧
      tail.length < slotSize ∧
      ∀ {slot : List UInt8} {entry : Option Record},
        slot.length = slotSize → decode slot = .ok entry →
        Shows (before ++ slot) (entries ++ [entry]) hidden := by
  obtain ⟨held, rows, hides⟩ := shows
  obtain ⟨before, tail, parted, place, short, extended⟩ := rows.extend
  refine ⟨before, tail, parted, ?_, short, ?_⟩
  · rw [place, hides.length_eq]
  · intro slot entry whole holds
    exact ⟨_, extended whole holds, hides.append entry⟩

end Shows

end Cardfile.Storage
