import Cardfile.Text.Numeral

/-!
# Trees of settings

What a source of settings says: texts, other simple values with the text they
are shown as, lists, and tables.  A table keeps the order in which its keys
came.
-/

namespace Cardfile.Settings

/-- A setting or a table of settings.  What a list holds is never asked for.
-/
inductive Tree where
  | absent
  | text (content : String)
  | plain (shown : String)
  | list
  | table (entries : List (String × Tree))

/-- Entries with a key set to a tree, in its old place or at the end. -/
def setKey (key : String) (tree : Tree) :
    List (String × Tree) → List (String × Tree)
  | [] => [(key, tree)]
  | (other, old) :: rest =>
      if other = key then (key, tree) :: rest
      else (other, old) :: setKey key tree rest

namespace Tree

/-- The entries of a table; nothing else has any. -/
def entries : Tree → List (String × Tree)
  | .table entries => entries
  | _ => []

/-- The tree under a key. -/
def get? (tree : Tree) (key : String) : Option Tree :=
  tree.entries.lookup key

/-- A whole number as a setting. -/
def ofInt (number : Int) : Tree := .plain (Text.showInteger number)

/-- A truth value as a setting. -/
def ofBool (value : Bool) : Tree :=
  .plain (if value then "true" else "false")

mutual

/-- Lays a tree over another.  The entries of a table are laid one by one, so
an empty table changes nothing; all else takes the place of what was there. -/
def lay (upper : Tree) (under : Tree) : Tree :=
  match upper with
  | .table entries => layEntries entries under
  | upper => upper

/-- Lays the entries of a table over a tree. -/
def layEntries (entries : List (String × Tree)) (under : Tree) : Tree :=
  match entries with
  | [] => under
  | entry :: rest => layEntries rest (layEntry entry under)

/-- Lays one entry over a tree, which becomes a table if it is none. -/
def layEntry (entry : String × Tree) (under : Tree) : Tree :=
  match entry with
  | (key, upper) =>
      .table (setKey key (lay upper ((under.get? key).getD .absent))
        under.entries)

end

/-- One step of the way to a setting. -/
inductive Step where
  | key (name : String)
  | index

/-- Lays a tree over the one at the end of a way.  A place in a list stands
for the list. -/
def layAt (upper : Tree) : List Step → Tree → Tree
  | [], under => upper.lay under
  | .key name :: way, under =>
      .table (setKey name (upper.layAt way ((under.get? name).getD .absent))
        under.entries)
  | .index :: _, _ => .list

/-- Whether a character may be part of a name on a way. -/
def isNameChar (c : Char) : Bool :=
  c.isAlphanum || c == '_' || c == '-'

/-- Reads the steps of a way behind its first name. -/
def readSteps : Nat → List Char → Option (List Step)
  | 0, _ => none
  | _ + 1, [] => some []
  | fuel + 1, '.' :: rest =>
      match rest.takeWhile isNameChar with
      | [] => none
      | name => do
          let way ← readSteps fuel (rest.dropWhile isNameChar)
          pure (.key (String.ofList name) :: way)
  | fuel + 1, '[' :: rest => do
      let digits := match rest with
        | '-' :: rest => rest
        | rest => rest
      if (digits.takeWhile Char.isDigit).isEmpty then none
      match digits.dropWhile Char.isDigit with
      | ']' :: rest => do
          let way ← readSteps fuel rest
          pure (.index :: way)
      | _ => none
  | _ + 1, _ => none

/-- The way that a key of a source names: names with points between them and
places in brackets.  A key of another form is one name. -/
def wayOf (key : String) : List Step :=
  let cs := key.toList
  match cs.takeWhile isNameChar with
  | [] => [.key key]
  | name =>
      match readSteps (cs.length + 1) (cs.dropWhile isNameChar) with
      | some way => .key (String.ofList name) :: way
      | none => [.key key]

/-- Lays the entries of a source over a tree, each at the end of its way. -/
def laySource (entries : List (String × Tree)) (under : Tree) : Tree :=
  entries.foldl (fun tree (key, upper) => upper.layAt (wayOf key) tree) under

end Tree

end Cardfile.Settings
