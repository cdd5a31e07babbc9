import Cardfile.Date.Reading
import Cardfile.Json.Basic
import Cardfile.Validation.Rules

/-!
# Rule sets in JSON

A rule file is an object of rule sets by name.  The parts of a rule set are
objects too, or arrays of their members in order.  Members that are not asked
for are passed over; a member that comes twice is a mistake, while of two rule
sets with one name the later counts.
-/

namespace Cardfile.Rules

open Json

/-- The members of an object by name, in the order of `names`: each at most
once, and `none` for one that is missing. -/
def pick? (names : List String) (members : List (Option String × Tree)) :
    Option (List (Option Tree)) := do
  let keys ← members.mapM Prod.fst
  let values := keys.zip (members.map Prod.snd)
  if names.all fun name => keys.count name ≤ 1 then
    some (names.map fun name => values.lookup name)
  else none

/-- The parts of a structure with the given member names, written as an object
or as an array; in an array only the last parts may be missing. -/
def parts? (names : List String) : Tree → Option (List (Option Tree))
  | .object members => pick? names members
  | .array items =>
      if items.length ≤ names.length then
        some (items.map some ++
          List.replicate (names.length - items.length) none)
      else none
  | _ => none

/-- A whole number of a range. -/
def integer? (low high : Int) : Option Tree → Option Int
  | some (.number literal) => do
      let number ← literal.integer?
      if low ≤ number ∧ number ≤ high then some number else none
  | _ => none

/-- A text. -/
def text? : Option Tree → Option String
  | some (.text content) => content
  | _ => none

/-- A span of whole numbers of a range. -/
def span? (low high : Int) (tree : Option Tree) : Option (Span Int) := do
  match ← parts? ["min", "max"] (← tree) with
  | [least, greatest] =>
      pure ⟨← integer? low high least, ← integer? low high greatest⟩
  | _ => none

/-- A span of lengths. -/
def lengths? (tree : Option Tree) : Option (Span Nat) := do
  let span ← span? 0 (UInt64.size - 1) tree
  pure ⟨span.least.toNat, span.greatest.toNat⟩

/-- A date in its free form. -/
def date? (tree : Option Tree) : Option Date := do
  Date.readFree? (← text? tree)

/-- The earliest and the latest date of birth. -/
def birth? (tree : Option Tree) : Option (Date × Option Date) := do
  match ← parts? ["from", "to"] (← tree) with
  | [earliest, latest] =>
      let earliest ← date? earliest
      match latest with
      | none => pure (earliest, none)
      | some .null => pure (earliest, none)
      | latest => pure (earliest, some (← date? latest))
  | _ => none

/-- A rule set. -/
def ofTree? (tree : Tree) : Option Rules := do
  match ← parts? ["first_name", "last_name", "date_of_birth",
      "identification_number", "identification_letters", "points"] tree with
  | [first, last, birth, number, letters, points] =>
      let firstName ← lengths? first
      let lastName ← lengths? last
      let (earliest, latest) ← birth? birth
      let number ←
        span? (Text.leastSigned 64) (Text.greatestSigned 64) number
      let letters ← text? letters
      let points ←
        span? (Text.leastSigned 16) (Text.greatestSigned 16) points
      pure
        { firstName := firstName
          lastName := lastName
          earliestBirth := earliest
          latestBirth := latest
          number := number
          letters := letters
          points := ⟨Int16.ofInt points.least, Int16.ofInt points.greatest⟩ }
  | _ => none

/-- A rule set added to others, in place of one with its name. -/
def addSet (sets : List (String × Rules)) (name : String) (rules : Rules) :
    List (String × Rules) :=
  sets.filter (·.1 != name) ++ [(name, rules)]

/-- Reads rule sets by name. -/
def readSets? (text : String) : Option (List (String × Rules)) := do
  match ← Json.read? text with
  | .object members =>
      members.foldlM
        (fun sets (name, tree) => do
          pure (addSet sets (← name) (← ofTree? tree)))
        []
  | _ => none

end Cardfile.Rules
