import Mathlib.Data.List.Nodup
import Cardfile.Record

/-!
# Rolls

A roll is the list of the records in a file, no two with the same id.  Writing
a record puts it in the place of the one with its id or at the end, and
burying an id strikes its record off.  In the file the records stand between
tombstones; the second part says how the roll follows when one of these
entries is exchanged.
-/

namespace Cardfile.Storage

namespace Roll

/-- The record with an id. -/
def find? (roll : List Record) (id : RecordId) : Option Record :=
  List.find? (·.id == id) roll

/-- The ids in their order. -/
def ids (roll : List Record) : List RecordId := roll.map Record.id

/-- The roll with a record in the place of the one with its id, or else at the
end. -/
def put (roll : List Record) (record : Record) : List Record :=
  if record.id ∈ ids roll then
    roll.map fun kept => if kept.id == record.id then record else kept
  else roll ++ [record]

/-- The roll without the record with an id. -/
def strike (roll : List Record) (id : RecordId) : List Record :=
  roll.filter (·.id != id)

variable (roll : List Record)

theorem find?_isSome (id : RecordId) :
    (find? roll id).isSome ↔ id ∈ ids roll := by
  simp [find?, ids, List.find?_isSome]

theorem find?_eq_none {id : RecordId} :
    find? roll id = none ↔ id ∉ ids roll := by
  rw [← find?_isSome]
  simp

theorem find?_cons (record : Record) (id : RecordId) :
    find? (record :: roll) id =
      if record.id = id then some record else find? roll id := by
  by_cases same : record.id = id <;> simp [find?, same]

variable {roll} in
theorem find?_of_mem (distinct : (ids roll).Nodup) {record : Record}
    (member : record ∈ roll) : find? roll record.id = some record := by
  induction roll with
  | nil => cases member
  | cons first roll ih =>
      obtain ⟨absent, distinct⟩ := List.nodup_cons.mp distinct
      rw [find?_cons]
      rcases List.mem_cons.mp member with rfl | later
      · exact if_pos rfl
      · have listed : record.id ∈ ids roll := List.mem_map_of_mem later
        rw [if_neg (ne_of_mem_of_not_mem listed absent).symm]
        exact ih distinct later

variable {roll} in
theorem filter_of_mem (distinct : (ids roll).Nodup) {record : Record}
    (member : record ∈ roll) :
    roll.filter (·.id == record.id) = [record] := by
  induction roll with
  | nil => cases member
  | cons first roll ih =>
      obtain ⟨absent, distinct⟩ := List.nodup_cons.mp distinct
      rw [List.filter_cons]
      rcases List.mem_cons.mp member with rfl | later
      · rw [if_pos (beq_self_eq_true _), List.cons_inj_right,
          List.filter_eq_nil_iff]
        intro other listed same
        apply absent
        rw [← eq_of_beq same]
        exact List.mem_map_of_mem listed
      · have listed : record.id ∈ ids roll := List.mem_map_of_mem later
        rw [if_neg, ih distinct later]
        rw [beq_iff_eq]
        exact (ne_of_mem_of_not_mem listed absent).symm

theorem filterMap_find? (distinct : (ids roll).Nodup) :
    (ids roll).filterMap (find? roll) = roll := by
  induction roll with
  | nil => rfl
  | cons record roll ih =>
      obtain ⟨absent, distinct⟩ := List.nodup_cons.mp distinct
      have others : (ids roll).filterMap (find? (record :: roll)) = roll := by
        refine Eq.trans (List.filterMap_congr ?_) (ih distinct)
        intro id member
        rw [find?_cons, if_neg (ne_of_mem_of_not_mem member absent).symm]
      have first : find? (record :: roll) record.id = some record := by
        rw [find?_cons, if_pos rfl]
      rw [ids, List.map_cons, List.filterMap_cons_some first]
      exact congrArg (record :: ·) others

theorem find?_put (record : Record) (id : RecordId) :
    find? (put roll record) id =
      if record.id = id then some record else find? roll id := by
  simp only [put]
  split
  · next present =>
      have sameIds : ((·.id == id) ∘ fun kept : Record =>
          if kept.id == record.id then record else kept) = (·.id == id) := by
        funext kept
        by_cases same : kept.id = record.id <;> simp [same]
      rw [find?, List.find?_map, sameIds, ← find?]
      cases found : find? roll id with
      | none =>
          have different : record.id ≠ id := by
            rintro rfl
            exact (find?_eq_none roll).mp found present
          simp [different]
      | some kept =>
          have own : kept.id = id := by simpa using List.find?_some found
          by_cases same : record.id = id
          · simp [own, same]
          · simp [own, same, Ne.symm same]
  · next absent =>
      rw [find?, List.find?_append, ← find?]
      by_cases same : record.id = id
      · have missing := (find?_eq_none roll).mpr (same ▸ absent)
        simp [missing, same]
      · simp [same]

theorem find?_strike (old id : RecordId) :
    find? (strike roll old) id = if old = id then none else find? roll id := by
  rw [find?, strike, List.find?_filter]
  split
  · next same =>
      subst same
      refine List.find?_eq_none.mpr ?_
      intro kept _
      simp
  · next different =>
      rw [find?]
      congr 1
      funext kept
      by_cases wanted : kept.id = id
      · simp [wanted, Ne.symm different]
      · simp [wanted]

theorem ids_put (record : Record) :
    ids (put roll record) =
      if record.id ∈ ids roll then ids roll else ids roll ++ [record.id] := by
  simp only [put]
  split
  · simp only [ids, List.map_map]
    refine List.map_congr_left ?_
    intro kept _
    by_cases same : kept.id = record.id <;> simp [same]
  · simp [ids]

theorem ids_strike (old : RecordId) :
    ids (strike roll old) = (ids roll).filter (· != old) := by
  rw [ids, strike, ids, List.filter_map]
  rfl

theorem strike_of_not_mem {id : RecordId} (absent : id ∉ ids roll) :
    strike roll id = roll := by
  apply List.filter_eq_self.mpr
  intro record member
  have listed : record.id ∈ ids roll := List.mem_map_of_mem member
  simpa using ne_of_mem_of_not_mem listed absent

theorem nodup_ids_put (record : Record) (distinct : (ids roll).Nodup) :
    (ids (put roll record)).Nodup := by
  rw [ids_put]
  split
  · exact distinct
  · next absent => exact List.nodup_append_comm.mp (List.nodup_cons.mpr ⟨absent, distinct⟩)

theorem nodup_ids_strike (old : RecordId) (distinct : (ids roll).Nodup) :
    (ids (strike roll old)).Nodup := by
  rw [ids_strike]
  exact distinct.filter _

end Roll

/-- The records among the entries of a file. -/
def live (entries : List (Option Record)) : List Record :=
  entries.filterMap id

/-- Whether an entry is the record with an id. -/
def holds (id : RecordId) (entry : Option Record) : Bool :=
  entry.any (·.id == id)

/-- The entries with another in the place of the record with an id. -/
def exchange (entries : List (Option Record)) (id : RecordId)
    (entry : Option Record) : List (Option Record) :=
  entries.map fun kept => if holds id kept then entry else kept

variable (entries : List (Option Record))

theorem live_append (record : Record) :
    live (entries ++ [some record]) = live entries ++ [record] := by
  rw [live, List.filterMap_append]
  rfl

theorem findIdx?_isSome (id : RecordId) :
    (entries.findIdx? (holds id)).isSome ↔ id ∈ Roll.ids (live entries) := by
  rw [List.findIdx?_isSome]
  simp [holds, Roll.ids, live, Option.any_eq_true]

theorem findIdx?_eq_none (id : RecordId) :
    entries.findIdx? (holds id) = none ↔ id ∉ Roll.ids (live entries) := by
  rw [← findIdx?_isSome]
  simp

theorem exchange_of_not_mem {id : RecordId}
    (absent : id ∉ Roll.ids (live entries)) (entry : Option Record) :
    exchange entries id entry = entries := by
  rw [← findIdx?_eq_none, List.findIdx?_eq_none_iff] at absent
  rw [exchange]
  calc entries.map (fun kept => if holds id kept then entry else kept)
      = entries.map fun kept => kept := by
        refine List.map_congr_left ?_
        intro kept member
        rw [absent kept member]
        rfl
    _ = entries := List.map_id'' (fun _ => rfl) entries

/-- Where ids are distinct, a record is exchanged at its place only. -/
theorem set_eq_exchange {entries : List (Option Record)} {id : RecordId}
    {index : Nat} (distinct : (Roll.ids (live entries)).Nodup)
    (found : entries.findIdx? (holds id) = some index)
    (entry : Option Record) :
    entries.set index entry = exchange entries id entry := by
  induction entries generalizing index with
  | nil => simp at found
  | cons kept entries ih =>
      rw [List.findIdx?_cons] at found
      by_cases here : holds id kept
      · rw [if_pos here] at found
        cases found
        obtain ⟨record, rfl, own⟩ := (Option.any_eq_true _ _).mp here
        simp only [beq_iff_eq] at own
        have absent := (List.nodup_cons.mp distinct).1
        have rest := exchange_of_not_mem entries (own ▸ absent) entry
        rw [List.set_cons_zero, exchange, List.map_cons, if_pos here]
        exact congrArg (entry :: ·) rest.symm
      · rw [if_neg here, Option.map_eq_some_iff] at found
        obtain ⟨index, found, rfl⟩ := found
        have tail : (Roll.ids (live entries)).Nodup :=
          distinct.sublist
            (((List.sublist_cons_self kept entries).filterMap _).map _)
        rw [List.set_cons_succ, ih tail found, exchange, exchange,
          List.map_cons, if_neg here]

theorem live_exchange_some {record : Record}
    (present : record.id ∈ Roll.ids (live entries)) :
    live (exchange entries record.id (some record)) =
      Roll.put (live entries) record := by
  rw [Roll.put, if_pos present, live, exchange, List.filterMap_map, live,
    List.map_filterMap]
  congr 1
  funext kept
  cases kept with
  | none => rfl
  | some kept => by_cases same : kept.id = record.id <;> simp [holds, same]

theorem live_exchange_none (id : RecordId) :
    live (exchange entries id none) = Roll.strike (live entries) id := by
  rw [Roll.strike, live, exchange, List.filterMap_map, live,
    List.filter_filterMap]
  congr 1
  funext kept
  cases kept with
  | none => rfl
  | some kept =>
      by_cases same : kept.id = id <;> simp [holds, same, Option.filter]

theorem findIdx?_exchange_some (record : Record) (id : RecordId) :
    (exchange entries record.id (some record)).findIdx? (holds id) =
      entries.findIdx? (holds id) := by
  rw [exchange, List.findIdx?_map]
  congr 1
  funext kept
  cases kept with
  | none => simp [holds]
  | some kept => by_cases same : kept.id = record.id <;> simp [holds, same]

theorem findIdx?_exchange_none (old id : RecordId) :
    (exchange entries old none).findIdx? (holds id) =
      if old = id then none else entries.findIdx? (holds id) := by
  rw [exchange, List.findIdx?_map]
  split
  · next same =>
      subst same
      refine List.findIdx?_eq_none_iff.mpr ?_
      intro kept _
      by_cases here : holds old kept <;> simp [here]
      simp [holds]
  · next different =>
      congr 1
      funext kept
      cases kept with
      | none => simp [holds]
      | some kept =>
          by_cases same : kept.id = old <;> simp [holds, same, different]

end Cardfile.Storage
