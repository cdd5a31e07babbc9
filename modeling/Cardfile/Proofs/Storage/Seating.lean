import Cardfile.Proofs.Storage.Calls

/-!
# Seated files

What a file knows while its slots are exchanged, one at a time, for others.
It may know a slot that a later one with the same id hides, if loading has
failed before it came to this one.  But then there is a slot that cannot be
read, which is never exchanged, so that nothing is loaded any more.
-/

namespace Cardfile

open Storage

namespace Storage

/-- Each whole slot holds a record or a tombstone. -/
def Readable (bytes : List UInt8) : Prop :=
  ∀ slot ∈ wholeSlots bytes, ∃ entry, decode slot = .ok entry

theorem mem_lastLive {bytes : List UInt8} {place : Nat} {record : Record} :
    (place, record) ∈ lastLive bytes ↔
      (place, record) ∈ liveSlots bytes ∧
        ∀ later other, (later, other) ∈ liveSlots bytes → place < later →
          other.id ≠ record.id := by
  simp [lastLive, isLast]

theorem eq_of_mem_liveSlots {bytes : List UInt8} {place : Nat}
    {record other : Record} (member : (place, record) ∈ liveSlots bytes)
    (again : (place, other) ∈ liveSlots bytes) : record = other := by
  obtain ⟨index, slot, there, reads, rfl⟩ := mem_liveSlots.mp member
  obtain ⟨slotAgain, thereAgain, readsAgain⟩ := mem_liveSlots_iff_at.mp again
  cases there.symm.trans thereAgain
  cases reads.symm.trans readsAgain
  rfl

/-- One slot is exchanged for another that can be read, or is new. -/
structure Exchanges (index : Nat) (entry : Option Record)
    (before after : List UInt8) : Prop where
  here : ∃ slot, (wholeSlots after)[index]? = some slot ∧
    decode slot = .ok entry
  others : ∀ other, other ≠ index →
    (wholeSlots after)[other]? = (wholeSlots before)[other]?
  site : index = (wholeSlots before).length ∨
    ∃ old, (index * slotSize, old) ∈ liveSlots before

namespace Exchanges

variable {index : Nat} {entry : Option Record} {before after : List UInt8}

theorem mem_liveSlots (exchanges : Exchanges index entry before after)
    {place : Nat} {record : Record} :
    (place, record) ∈ liveSlots after ↔
      if place = index * slotSize then entry = some record
      else (place, record) ∈ liveSlots before := by
  obtain ⟨slot, here, reads⟩ := exchanges.here
  split
  · next same =>
      rw [same, mem_liveSlots_iff_at]
      constructor
      · rintro ⟨otherSlot, found, holds⟩
        cases here.symm.trans found
        exact Except.ok.inj (reads.symm.trans holds)
      · rintro rfl
        exact ⟨slot, here, reads⟩
  · next different =>
      rw [Storage.mem_liveSlots, Storage.mem_liveSlots]
      have elsewhere : ∀ other, other * slotSize = place →
          (wholeSlots after)[other]? = (wholeSlots before)[other]? := by
        rintro other rfl
        apply exchanges.others
        rintro rfl
        exact different rfl
      constructor
      · rintro ⟨other, otherSlot, found, holds, place⟩
        exact ⟨other, otherSlot, elsewhere other place ▸ found, holds, place⟩
      · rintro ⟨other, otherSlot, found, holds, place⟩
        exact ⟨other, otherSlot, (elsewhere other place).trans found, holds,
          place⟩

theorem readable (exchanges : Exchanges index entry before after)
    (reads : Readable after) : Readable before := by
  intro slot member
  obtain ⟨other, found⟩ := List.mem_iff_getElem?.mp member
  by_cases here : other = index
  · subst here
    rcases exchanges.site with behind | ⟨old, live⟩
    · obtain ⟨inside, _⟩ := List.getElem?_eq_some_iff.mp found
      exact absurd behind (Nat.ne_of_lt inside)
    · obtain ⟨oldSlot, there, holds⟩ := mem_liveSlots_iff_at.mp live
      cases there.symm.trans found
      exact ⟨_, holds⟩
  · rw [← exchanges.others other here] at found
    exact reads slot (List.mem_of_getElem? found)

theorem mem_lastLive_of_ne (exchanges : Exchanges index entry before after)
    {place : Nat} {record : Record} (last : (place, record) ∈ lastLive before)
    (apart : place ≠ index * slotSize)
    (other : ∀ form, entry = some form → form.id ≠ record.id) :
    (place, record) ∈ lastLive after := by
  obtain ⟨live, final⟩ := mem_lastLive.mp last
  refine mem_lastLive.mpr ⟨?_, ?_⟩
  · rw [exchanges.mem_liveSlots, if_neg apart]
    exact live
  · intro later form member behind
    rw [exchanges.mem_liveSlots] at member
    split at member
    · exact other form member
    · exact final later form member behind

/-- The record in the slot is the last with its id, if the one that it
replaces was, or if there was none. -/
theorem mem_lastLive_self {form : Record}
    (exchanges : Exchanges index (some form) before after)
    (site : index = (wholeSlots before).length ∨
      ∃ old, (index * slotSize, old) ∈ lastLive before ∧
        old.id = form.id) :
    (index * slotSize, form) ∈ lastLive after := by
  refine mem_lastLive.mpr ⟨?_, ?_⟩
  · rw [exchanges.mem_liveSlots, if_pos rfl]
  · intro later other member behind
    rw [exchanges.mem_liveSlots, if_neg (Nat.ne_of_gt behind)] at member
    rcases site with last | ⟨old, last, own⟩
    · obtain ⟨place, _, _, _, rfl⟩ := Storage.mem_liveSlots.mp member
      have inside := lt_of_mem_liveSlots member
      have further := Nat.lt_of_mul_lt_mul_right behind
      omega
    · rw [← own]
      exact (mem_lastLive.mp last).2 later other member behind

theorem length_wholeSlots (exchanges : Exchanges index entry before after) :
    (wholeSlots after).length =
      max (wholeSlots before).length (index + 1) := by
  have ends : ∀ count, (wholeSlots after).length ≤ count ↔
      (wholeSlots before).length ≤ count ∧ count ≠ index := by
    intro count
    obtain ⟨slot, here, _⟩ := exchanges.here
    rw [← List.getElem?_eq_none_iff]
    by_cases same : count = index
    · rw [same, here]
      simp
    · rw [exchanges.others count same, List.getElem?_eq_none_iff]
      simp [same]
  have reached : index ≤ (wholeSlots before).length := by
    rcases exchanges.site with behind | ⟨old, live⟩
    · exact Nat.le_of_eq behind
    · exact Nat.le_of_lt (lt_of_mem_liveSlots live)
  have least := ends (wholeSlots after).length
  have most := ends (max (wholeSlots before).length (index + 1))
  omega

end Exchanges

end Storage

namespace RecordFile

theorem readable_of_load {file : RecordFile} {records : List Record}
    (loads : file.load.1 = .ok records) : Readable file.bytes.toList := by
  intro slot member
  cases holds : decode slot with
  | ok entry => exact ⟨entry, rfl⟩
  | error fault =>
      obtain ⟨failure, failed⟩ :=
        file.load_fails_iff.mpr ⟨slot, member, fault, holds⟩
      cases failed.symm.trans loads

theorem exists_load_of_readable {file : RecordFile}
    (readable : Readable file.bytes.toList) :
    ∃ records, file.load.1 = .ok records := by
  cases result : file.load.1 with
  | ok records => exact ⟨records, rfl⟩
  | error failure =>
      obtain ⟨slot, member, fault, failed⟩ :=
        file.load_fails_iff.mp ⟨failure, result⟩
      obtain ⟨entry, holds⟩ := readable slot member
      cases failed.symm.trans holds

/-- Whether or not all slots can be read, only places of live slots are
known. -/
theorem live_of_readSlots {loading : Loading} {start : Nat}
    {slots : List (List UInt8)} {id : RecordId} {place : Nat}
    (found : (readSlots loading (start * slotSize) slots).1.offsets[id]? =
      some place) :
    loading.offsets[id]? = some place ∨
      ∃ record, (place, record) ∈ places (slots.map record?) start ∧
        record.id = id := by
  induction slots generalizing loading start with
  | nil => exact .inl found
  | cons slot slots ih =>
      rw [readSlots] at found
      rw [List.map_cons]
      split at found
      · exact .inl found
      · next buried =>
          rw [← Nat.succ_mul] at found
          rw [record?, buried, places_cons_none]
          exact ih found
      · next record holds =>
          rw [← Nat.succ_mul] at found
          rw [record?, holds, places_cons_some]
          rcases ih found with before | ⟨other, listed, own⟩
          · rw [Loading.take, Std.TreeMap.getElem?_insert] at before
            split at before
            · next same =>
                cases before
                exact .inr ⟨record, .head _, Std.compare_eq_iff_eq.mp same⟩
            · exact .inl before
          · exact .inr ⟨other, .tail _ listed, own⟩

theorem live_of_load {file : RecordFile} {id : RecordId} {place : Nat}
    (found : file.load.2.offsets[id]? = some place) :
    ∃ record, (place, record) ∈ liveSlots file.bytes.toList ∧
      record.id = id := by
  have read : (readSlots {} (0 * slotSize)
      (wholeSlots file.bytes.toList)).1.offsets[id]? = some place := by
    rw [← slots_eq_wholeSlots, Array.length_toList, Nat.zero_mul]
    simp only [load] at found
    split at found <;> next reads => rwa [reads]
  rcases live_of_readSlots read with unknown | live
  · simp at unknown
  · exact live

/-- The known places are those of live slots, each the last with its id if all
slots can be read, and a place for a new slot that is a boundary of slots is
the last of these. -/
structure Seated (file : RecordFile) : Prop where
  known : ∀ id place, file.offsets[id]? = some place →
    ∃ record, (place, record) ∈ liveSlots file.bytes.toList ∧
      record.id = id ∧
      (Readable file.bytes.toList →
        (place, record) ∈ lastLive file.bytes.toList)
  next : slotSize ∣ file.next →
    file.next = (wholeSlots file.bytes.toList).length * slotSize

theorem seated_ofBytes (bytes : List UInt8) : (ofBytes bytes).Seated := by
  constructor
  · intro id place found
    simp [ofBytes] at found
  · intro whole
    rw [length_wholeSlots]
    exact (Nat.div_mul_cancel whole).symm

namespace Seated

variable {file : RecordFile}

theorem load (seated : file.Seated) : file.load.2.Seated := by
  constructor
  · intro id place found
    obtain ⟨record, live, own⟩ := live_of_load found
    rw [bytes_load]
    refine ⟨record, live, own, ?_⟩
    intro readable
    obtain ⟨records, loads⟩ := exists_load_of_readable readable
    obtain ⟨_, _, known, _⟩ := lastLive_of_load loads
    obtain ⟨other, last, _⟩ := (known id place).mp found
    rw [eq_of_mem_liveSlots live (mem_lastLive.mp last).1]
    exact last
  · rw [bytes_load]
    cases result : file.load.1 with
    | ok records =>
        intro _
        rw [(lastLive_of_load result).2.2.2, length_wholeSlots,
          Array.length_toList]
    | error fault =>
        have kept : file.load.2.next = file.next := by
          simp only [RecordFile.load] at result ⊢
          split at result
          · rfl
          · cases result
        rw [kept]
        exact seated.next

theorem slot_of_known (seated : file.Seated) {id : RecordId} {index : Nat}
    (known : file.offsets[id]? = some (index * slotSize)) :
    index < (wholeSlots file.bytes.toList).length ∧
      ∀ old, (index * slotSize, old) ∈ liveSlots file.bytes.toList →
        old.id = id := by
  obtain ⟨record, live, own, _⟩ := seated.known id _ known
  refine ⟨lt_of_mem_liveSlots live, ?_⟩
  intro old again
  rw [eq_of_mem_liveSlots again live]
  exact own

variable {after : RecordFile} {index : Nat} {id : RecordId}

/-- What is known of a slot stays true when another slot is exchanged, unless
the id comes back in this one. -/
theorem known_of_ne (seated : file.Seated) {entry : Option Record}
    {bytes : List UInt8} (exchanges : Exchanges index entry
      file.bytes.toList bytes) {place : Nat}
    (found : file.offsets[id]? = some place)
    (apart : place ≠ index * slotSize)
    (different : ∀ form, entry = some form → form.id ≠ id) :
    ∃ record, (place, record) ∈ liveSlots bytes ∧ record.id = id ∧
      (Readable bytes → (place, record) ∈ lastLive bytes) := by
  obtain ⟨record, live, rfl, last⟩ := seated.known id place found
  refine ⟨record, ?_, rfl, ?_⟩
  · rw [exchanges.mem_liveSlots, if_neg apart]
    exact live
  · intro readable
    exact exchanges.mem_lastLive_of_ne (last (exchanges.readable readable))
      apart different

section Written

variable {slot : List UInt8} {form : Record}

theorem exchanges_written (seated : file.Seated)
    (written : WrittenAt index slot id file after)
    (holds : decode slot = .ok (some form)) :
    Exchanges index (some form) file.bytes.toList after.bytes.toList := by
  refine ⟨⟨slot, ?_, holds⟩, ?_, ?_⟩
  · rw [written.slots, if_pos rfl]
  · intro other different
    rw [written.slots, if_neg different]
  · rcases written.site with ⟨known, _, _⟩ | ⟨_, behind, _⟩
    · obtain ⟨record, live, _⟩ := seated.known id _ known
      exact .inr ⟨record, live⟩
    · exact .inl behind

/-- No other id has its record in the slot that is written. -/
theorem own_of_written (seated : file.Seated)
    (written : WrittenAt index slot id file after) {old : Record}
    (live : (index * slotSize, old) ∈ liveSlots file.bytes.toList) :
    old.id = id := by
  rcases written.site with ⟨known, _, _⟩ | ⟨_, behind, _⟩
  · exact (seated.slot_of_known known).2 old live
  · exact absurd behind (Nat.ne_of_lt (lt_of_mem_liveSlots live))

/-- A record that is written is the last with its id. -/
theorem last_of_written (seated : file.Seated)
    (written : WrittenAt index slot id file after)
    (holds : decode slot = .ok (some form)) (own : form.id = id)
    (readable : Readable after.bytes.toList) :
    (index * slotSize, form) ∈ lastLive after.bytes.toList := by
  have exchanges := seated.exchanges_written written holds
  apply exchanges.mem_lastLive_self
  rcases written.site with ⟨known, _, _⟩ | ⟨_, behind, _⟩
  · obtain ⟨record, _, same, last⟩ := seated.known id _ known
    exact .inr ⟨record, last (exchanges.readable readable),
      same.trans own.symm⟩
  · exact .inl behind

theorem written (seated : file.Seated)
    (written : WrittenAt index slot id file after)
    (holds : decode slot = .ok (some form)) (own : form.id = id) :
    after.Seated := by
  have exchanges := seated.exchanges_written written holds
  constructor
  · intro other place found
    rw [written.offsets] at found
    split at found
    · next same =>
        cases found
        refine ⟨form, ?_, own.trans same,
          seated.last_of_written written holds own⟩
        rw [exchanges.mem_liveSlots, if_pos rfl]
    · next different =>
        refine seated.known_of_ne exchanges found ?_ ?_
        · rintro rfl
          obtain ⟨record, live, same, _⟩ := seated.known other _ found
          exact different
            ((seated.own_of_written written live).symm.trans same)
        · rintro _ ⟨⟩
          rw [own]
          exact different
  · rw [exchanges.length_wholeSlots]
    rcases written.site with ⟨_, inside, next⟩ | ⟨_, behind, next⟩
    · rw [next, Nat.max_eq_left inside]
      exact seated.next
    · rw [next, behind, Nat.max_eq_right (Nat.le_succ _), Nat.succ_mul]
      intro whole
      rw [seated.next ((Nat.dvd_add_left (Nat.dvd_refl _)).mp whole)]

end Written

section Buried

theorem exchanges_buried (seated : file.Seated)
    (buried : BuriedAt index id file after) :
    Exchanges index none file.bytes.toList after.bytes.toList := by
  obtain ⟨record, live, _⟩ := seated.known id _ buried.known
  have inside := (seated.slot_of_known buried.known).1
  refine ⟨?_, ?_, .inr ⟨record, live⟩⟩
  · apply buried.marked.exists_tombstone
    rwa [length_wholeSlots] at inside
  · intro other different
    exact buried.marked.getElem?_wholeSlots_of_ne different

theorem buried (seated : file.Seated)
    (buried : BuriedAt index id file after) : after.Seated := by
  have exchanges := seated.exchanges_buried buried
  constructor
  · intro other place found
    rw [buried.offsets] at found
    split at found
    · cases found
    · next different =>
        refine seated.known_of_ne exchanges found ?_ ?_
        · rintro rfl
          obtain ⟨record, live, same, _⟩ := seated.known other _ found
          have own := (seated.slot_of_known buried.known).2 record live
          exact different (own.symm.trans same)
        · rintro _ ⟨⟩
  · rw [buried.next, length_wholeSlots, buried.marked.length_eq,
      ← length_wholeSlots]
    exact seated.next

end Buried

end Seated

end RecordFile

end Cardfile
