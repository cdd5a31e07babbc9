import Std.Data.TreeMap
import Cardfile.Record

/-!
# Lookups

A lookup finds the ids of records by a key.  The ids of one key stand in a
bucket in the order in which they came, and a bucket that has become empty is
dropped.
-/

namespace Cardfile

/-- Buckets of ids by key. -/
structure Lookup (κ : Type) [Ord κ] where
  buckets : Std.TreeMap κ (List RecordId)

namespace Lookup

variable {κ : Type} [Ord κ]

/-- The lookup without a key. -/
def empty : Lookup κ := ⟨∅⟩

/-- The bucket of a key, empty if there is none. -/
def find (lookup : Lookup κ) (key : κ) : List RecordId :=
  lookup.buckets.getD key []

/-- Puts an id at the end of the bucket of a key, unless it is there. -/
def insert (lookup : Lookup κ) (key : κ) (id : RecordId) : Lookup κ :=
  let bucket := lookup.find key
  ⟨lookup.buckets.insert key
    (if bucket.contains id then bucket else bucket ++ [id])⟩

/-- The lookup with another bucket for a key. -/
def rebucket (lookup : Lookup κ) (key : κ) (bucket : List RecordId) :
    Lookup κ :=
  if bucket.isEmpty then ⟨lookup.buckets.erase key⟩
  else ⟨lookup.buckets.insert key bucket⟩

/-- Takes an id out of the bucket of a key, and tells whether it was there. -/
def remove (lookup : Lookup κ) (key : κ) (id : RecordId) :
    Bool × Lookup κ :=
  match lookup.buckets[key]? with
  | none => (false, lookup)
  | some bucket =>
      (bucket.contains id, lookup.rebucket key (bucket.filter (· != id)))

/-- Whether the bucket of a key holds an id. -/
def holds (lookup : Lookup κ) (key : κ) (id : RecordId) : Bool :=
  (lookup.find key).contains id

/-- The number of ids in all buckets. -/
def entries (lookup : Lookup κ) : Nat :=
  lookup.buckets.foldl (fun total _ bucket => total + bucket.length) 0

/-- The number of buckets. -/
def size (lookup : Lookup κ) : Nat := lookup.buckets.size

/-- Whether there is no bucket. -/
def isEmpty (lookup : Lookup κ) : Bool := lookup.buckets.isEmpty

end Lookup

end Cardfile
