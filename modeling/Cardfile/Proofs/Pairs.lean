import Mathlib.Data.List.Dedup
import Mathlib.Data.Prod.Basic
import Cardfile.Proofs.Verification

/-!
# Lookups as lists of pairs

A lookup shows as much as a plain list of pairs of a key and an id in the
order in which they came.  Every call does to the lookup what it does to the
list; so buckets, counts and the answers of removals can be read off the
list, whatever calls have come before.
-/

namespace Cardfile

namespace Pairs

variable {κ : Type} [DecidableEq κ]

/-- The ids that are paired with a key. -/
def ids (pairs : List (κ × RecordId)) (key : κ) : List RecordId :=
  (pairs.filter fun pair => pair.1 = key).map Prod.snd

/-- The keys, each once. -/
def keys (pairs : List (κ × RecordId)) : List κ :=
  (pairs.map Prod.fst).dedup

theorem nodup_keys {pairs : List (κ × RecordId)} : (keys pairs).Nodup :=
  List.nodup_dedup _

/-- The list with a pair at the end, unless it has the pair. -/
def enter (pairs : List (κ × RecordId)) (key : κ) (id : RecordId) :
    List (κ × RecordId) :=
  if (key, id) ∈ pairs then pairs else pairs ++ [(key, id)]

variable {pairs : List (κ × RecordId)}

theorem mem_ids {key : κ} {id : RecordId} :
    id ∈ ids pairs key ↔ (key, id) ∈ pairs := by
  simp [ids]

theorem mem_keys {key : κ} : key ∈ keys pairs ↔ ids pairs key ≠ [] := by
  simp [keys, ids]

theorem keys_eq_nil : keys pairs = [] ↔ pairs = [] := by
  rw [keys, List.dedup_eq_nil, List.map_eq_nil_iff]

theorem ids_enter_self (pairs : List (κ × RecordId)) (key : κ)
    (id : RecordId) :
    ids (enter pairs key id) key =
      if id ∈ ids pairs key then ids pairs key
      else ids pairs key ++ [id] := by
  rw [enter]
  by_cases present : (key, id) ∈ pairs
  · rw [if_pos present, if_pos (mem_ids.mpr present)]
  · rw [if_neg present, if_neg (mem_ids.not.mpr present)]
    simp [ids]

theorem ids_enter_of_ne (pairs : List (κ × RecordId)) {key other : κ}
    (id : RecordId) (different : key ≠ other) :
    ids (enter pairs key id) other = ids pairs other := by
  rw [enter]
  split
  · rfl
  · simp [ids, different]

theorem ids_erase_self (once : pairs.Nodup) (key : κ) (id : RecordId) :
    ids (pairs.erase (key, id)) key =
      (ids pairs key).filter (· != id) := by
  rw [once.erase_eq_filter, ids, ids, List.filter_map, List.filter_filter,
    List.filter_filter]
  congr 1
  apply List.filter_congr
  intro pair _
  rw [Bool.eq_iff_iff]
  by_cases same : pair.1 = key <;> simp [Prod.ext_iff, same]

theorem ids_erase_of_ne (once : pairs.Nodup) {key other : κ}
    (id : RecordId) (different : key ≠ other) :
    ids (pairs.erase (key, id)) other = ids pairs other := by
  rw [once.erase_eq_filter, ids, ids, List.filter_filter]
  congr 1
  apply List.filter_congr
  intro pair _
  by_cases same : pair.1 = other
  · have apart : pair ≠ (key, id) := by
      intro equal
      exact different ((congrArg Prod.fst equal).symm.trans same)
    simp [same, apart]
  · simp [same]

theorem nodup_enter (once : pairs.Nodup) (key : κ) (id : RecordId) :
    (enter pairs key id).Nodup := by
  rw [enter]
  split
  · exact once
  · next absent =>
      rw [← List.concat_eq_append]
      exact once.concat absent

end Pairs

namespace Lookup

variable {κ : Type} [Ord κ]

/-- What a lookup is asked to do. -/
inductive Call (κ : Type) where
  | insert (key : κ) (id : RecordId)
  | remove (key : κ) (id : RecordId)

/-- The lookup after a call. -/
def after (lookup : Lookup κ) : Call κ → Lookup κ
  | .insert key id => lookup.insert key id
  | .remove key id => (lookup.remove key id).2

/-- The list of pairs after the same call. -/
def Call.onPairs [DecidableEq κ] (pairs : List (κ × RecordId)) :
    Call κ → List (κ × RecordId)
  | .insert key id => Pairs.enter pairs key id
  | .remove key id => pairs.erase (key, id)

/-- A lookup lists pairs: each bucket has the ids that are paired with its
key, in the order of the list. -/
structure Lists [DecidableEq κ] (lookup : Lookup κ)
    (pairs : List (κ × RecordId)) : Prop where
  once : pairs.Nodup
  tidy : lookup.Tidy
  find_eq : ∀ key, lookup.find key = Pairs.ids pairs key

theorem Lists.holds_iff [DecidableEq κ] {lookup : Lookup κ}
    {pairs : List (κ × RecordId)} (lists : lookup.Lists pairs) (key : κ)
    (id : RecordId) : lookup.holds key id = true ↔ (key, id) ∈ pairs := by
  rw [holds, List.contains_iff_mem, lists.find_eq, Pairs.mem_ids]

variable [Std.TransOrd κ]

theorem Lists.empty [DecidableEq κ] : (Lookup.empty : Lookup κ).Lists [] where
  once := List.nodup_nil
  tidy := .empty
  find_eq := find_empty

theorem remove_fst (lookup : Lookup κ) (key : κ) (id : RecordId) :
    (lookup.remove key id).1 = lookup.holds key id := by
  rw [holds, find_eq, remove]
  cases lookup.buckets[key]? with
  | none => rfl
  | some bucket => rfl

variable [Std.LawfulEqOrd κ] {lookup : Lookup κ}

theorem Tidy.mem_keys (tidy : lookup.Tidy) (key : κ) :
    key ∈ lookup.buckets.keys ↔ lookup.find key ≠ [] := by
  rw [Std.TreeMap.mem_keys, Std.TreeMap.mem_iff_isSome_getElem?, find_eq]
  cases present : lookup.buckets[key]? with
  | none => simp
  | some bucket => simpa using tidy.filled key bucket present

theorem Tidy.nodup_pairs (tidy : lookup.Tidy) : lookup.pairs.Nodup := by
  apply List.nodup_flatMap.mpr
  constructor
  · intro entry member
    apply List.Nodup.map (Prod.mk_right_injective entry.1)
    rw [← find_of_mem_toList member]
    exact tidy.distinct entry.1
  · apply Std.TreeMap.distinct_keys_toList.imp
    intro left right different pair inLeft inRight
    obtain ⟨leftId, _, fromLeft⟩ := List.mem_map.mp inLeft
    obtain ⟨rightId, _, fromRight⟩ := List.mem_map.mp inRight
    have same : left.1 = right.1 :=
      (Prod.mk.inj (fromLeft.trans fromRight.symm)).1
    exact different (by rw [same, Std.compare_self])

namespace Lists

variable [DecidableEq κ] {pairs : List (κ × RecordId)}

theorem insert (lists : lookup.Lists pairs) (key : κ) (id : RecordId) :
    (lookup.insert key id).Lists (Pairs.enter pairs key id) where
  once := Pairs.nodup_enter lists.once key id
  tidy := lists.tidy.insert key id
  find_eq := by
    intro other
    by_cases same : key = other
    · subst other
      rw [find_insert_self, Pairs.ids_enter_self, lists.find_eq]
    · rw [find_insert_of_ne lookup id same,
        Pairs.ids_enter_of_ne pairs id same, lists.find_eq]

theorem remove (lists : lookup.Lists pairs) (key : κ) (id : RecordId) :
    (lookup.remove key id).2.Lists (pairs.erase (key, id)) where
  once := lists.once.erase _
  tidy := lists.tidy.remove key id
  find_eq := by
    intro other
    by_cases same : key = other
    · subst other
      rw [find_remove_self, Pairs.ids_erase_self lists.once, lists.find_eq]
    · rw [find_remove_of_ne lookup id same,
        Pairs.ids_erase_of_ne lists.once id same, lists.find_eq]

theorem after (lists : lookup.Lists pairs) (call : Call κ) :
    (lookup.after call).Lists (call.onPairs pairs) := by
  cases call with
  | insert key id => exact lists.insert key id
  | remove key id => exact lists.remove key id

theorem foldl_after (lists : lookup.Lists pairs) (calls : List (Call κ)) :
    (calls.foldl Lookup.after lookup).Lists
      (calls.foldl Call.onPairs pairs) := by
  induction calls generalizing lookup pairs with
  | nil => exact lists
  | cons call calls ih => exact ih (lists.after call)

theorem perm_pairs (lists : lookup.Lists pairs) :
    lookup.pairs.Perm pairs := by
  apply (List.perm_ext_iff_of_nodup lists.tidy.nodup_pairs lists.once).mpr
  intro pair
  rw [mem_pairs, lists.holds_iff]

theorem perm_keys (lists : lookup.Lists pairs) :
    lookup.buckets.keys.Perm (Pairs.keys pairs) := by
  apply (List.perm_ext_iff_of_nodup Std.TreeMap.nodup_keys
    Pairs.nodup_keys).mpr
  intro key
  rw [lists.tidy.mem_keys, lists.find_eq, Pairs.mem_keys]

theorem entries_eq (lists : lookup.Lists pairs) :
    lookup.entries = pairs.length := by
  rw [← length_pairs, lists.perm_pairs.length_eq]

theorem size_eq (lists : lookup.Lists pairs) :
    lookup.size = (Pairs.keys pairs).length := by
  rw [size, ← Std.TreeMap.length_keys, lists.perm_keys.length_eq]

theorem isEmpty_iff (lists : lookup.Lists pairs) :
    lookup.isEmpty = true ↔ pairs = [] := by
  rw [isEmpty, Std.TreeMap.isEmpty_eq_size_eq_zero, beq_iff_eq, ← size,
    lists.size_eq, List.length_eq_zero_iff, Pairs.keys_eq_nil]

end Lists

/-- After any calls, a lookup shows what the list of pairs shows after the
same calls. -/
theorem reads_as_pairs [DecidableEq κ] (calls : List (Call κ)) :
    let lookup := calls.foldl after (empty : Lookup κ)
    let pairs := calls.foldl Call.onPairs []
    (∀ key, lookup.find key = Pairs.ids pairs key) ∧
      (∀ key id, (lookup.remove key id).1 = true ↔ (key, id) ∈ pairs) ∧
      lookup.entries = pairs.length ∧
      lookup.size = (Pairs.keys pairs).length ∧
      (lookup.isEmpty = true ↔ pairs = []) ∧
      ∀ (key : κ) (bucket : List RecordId),
        lookup.buckets[key]? = some bucket → bucket ≠ [] := by
  intro lookup pairs
  have lists : lookup.Lists pairs := Lists.empty.foldl_after calls
  refine ⟨lists.find_eq, ?_, lists.entries_eq, lists.size_eq,
    lists.isEmpty_iff, lists.tidy.filled⟩
  intro key id
  rw [remove_fst, lists.holds_iff]

/-- An id that comes back goes to the end of its bucket, and a key without
ids is gone. -/
theorem reads_as_pairs_of_return :
    let calls : List (Call String) :=
      [.insert "lee" 1, .insert "kim" 1, .insert "lee" 2, .insert "lee" 1,
        .remove "lee" 1, .remove "kim" 2, .insert "lee" 1, .remove "kim" 1]
    let lookup := calls.foldl after empty
    lookup.find "lee" = [2, 1] ∧ (lookup.remove "kim" 1).1 = false ∧
      lookup.entries = 2 ∧ lookup.size = 1 ∧ lookup.isEmpty = false := by
  intro calls lookup
  have left : calls.foldl Call.onPairs [] = [("lee", 2), ("lee", 1)] := by
    decide +kernel
  obtain ⟨find, removed, entries, size, vacant, _⟩ := reads_as_pairs calls
  rw [left] at find removed entries size vacant
  refine ⟨find "lee", ?_, entries, size, ?_⟩
  · rw [Bool.eq_false_iff, ne_eq, removed]
    decide
  · rw [Bool.eq_false_iff, ne_eq, vacant]
    decide

end Lookup

end Cardfile
