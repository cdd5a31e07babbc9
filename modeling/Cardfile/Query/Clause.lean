/-!
# Clauses as they are written

The parts of clauses and statements before their names and values are looked
at.
-/

namespace Cardfile.Query

/-- How two comparisons are joined. -/
inductive Connective where
  | and
  | or
deriving DecidableEq, Repr

namespace Connective

/-- The word for a connective. -/
def word : Connective → String
  | .and => "and"
  | .or => "or"

/-- The meaning of a connective. -/
def apply : Connective → Bool → Bool → Bool
  | .and, left, right => left && right
  | .or, left, right => left || right

end Connective

/-- A name and the text that it is compared with or set to. -/
structure Binding where
  name : String
  text : String
deriving DecidableEq, Repr

/-- Comparisons in a row with the connectives between them. -/
structure Chain (α : Type) where
  first : α
  rest : List (Connective × α)
deriving DecidableEq, Repr

/-- A list of names, or the star that stands for every field. -/
inductive Names where
  | star
  | list (names : List String)
deriving DecidableEq, Repr

/-- The written names; the star is one of them. -/
def Names.words : Names → List String
  | .star => ["*"]
  | .list names => names

/-- A statement as it is written. -/
inductive Sentence where
  | insert (names : Names) (values : List String)
  | select (names : Names) (condition : Option (Chain Binding))
  | update (assignments : List Binding) (condition : Option (Chain Binding))
  | delete (condition : Chain Binding)
deriving DecidableEq, Repr

end Cardfile.Query
