import Cardfile.Decimal.Double
import Cardfile.Json.Basic
import Cardfile.Settings.Tree

/-!
# Settings in JSON

Each value of JSON text is a setting.  Of two members with one name the later
counts.
-/

namespace Cardfile.Settings

/-- The setting that a number writes: a whole number of 64 bits, or else a
double, if it is not too large for one. -/
def ofLiteral? (literal : Json.Literal) : Option Tree :=
  match literal.integer? with
  | some number =>
      if Text.isSigned 64 number then some (.ofInt number) else real?
  | none => real?
where
  real? : Option Tree :=
    if literal.isHuge then none
    else some (.plain (Decimal.showDouble literal.negative literal.decimal))

/-- How deep values may be nested. -/
def mostNested : Nat := 127

mutual

/-- The setting that JSON text gives. -/
def ofJson? : Nat → Json.Tree → Option Tree
  | _, .null => some .absent
  | _, .bool value => some (.ofBool value)
  | _, .number literal => ofLiteral? literal
  | _, .text content => content.map .text
  | 0, _ => none
  | depth + 1, .array items =>
      if areSettings depth items then some .list else none
  | depth + 1, .object members => do
      pure (.table (← ofMembers? depth [] members))
  | _, .broken => none

/-- Whether all items of an array are settings. -/
def areSettings : Nat → List Json.Tree → Bool
  | _, [] => true
  | depth, item :: items =>
      (ofJson? depth item).isSome && areSettings depth items

/-- The settings of the members of an object, added to others. -/
def ofMembers? : Nat → List (String × Tree) →
    List (Option String × Json.Tree) → Option (List (String × Tree))
  | _, entries, [] => some entries
  | depth, entries, member :: members => do
      let (key, tree) ← ofMember? depth member
      ofMembers? depth (setKey key tree entries) members

/-- The setting of one member of an object. -/
def ofMember? : Nat → Option String × Json.Tree → Option (String × Tree)
  | depth, (key, value) => do
      pure (← key, ← ofJson? depth value)

end

/-- Reads settings from JSON text. -/
def readJson? (text : String) : Option Tree := do
  ofJson? mostNested (← Json.read? text)

end Cardfile.Settings
