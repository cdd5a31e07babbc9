/-!
# Symbols of the query language

The parts of clauses and statements that a failure may say it expected.
-/

namespace Cardfile.Query

/-- A part of the query language that has a name. -/
inductive Symbol where
  | endOfInput
  | field
  | star
  | text
  | quoted
  | bare
  | andOp
  | orOp
  | comparison
  | condition
  | assignment
  | assignments
  | fieldList
  | valueList
  | whereClause
  | setClause
  | selectClause
  | insertWord
  | valuesWord
  | selectWord
  | updateWord
  | setWord
  | deleteWord
  | whereWord
  | insert
  | select
  | update
  | delete
  | statement
deriving DecidableEq, Repr

namespace Symbol

/-- Every symbol, in the order in which a failure lists them. -/
def all : List Symbol :=
  [.endOfInput, .field, .star, .text, .quoted, .bare, .andOp, .orOp,
   .comparison, .condition, .assignment, .assignments, .fieldList, .valueList,
   .whereClause, .setClause, .selectClause, .insertWord, .valuesWord,
   .selectWord, .updateWord, .setWord, .deleteWord, .whereWord, .insert,
   .select, .update, .delete, .statement]

/-- The name of a symbol in messages. -/
def name : Symbol → String
  | .endOfInput => "EOI"
  | .field => "field"
  | .star => "star"
  | .text => "text"
  | .quoted => "quoted"
  | .bare => "bare"
  | .andOp => "and_op"
  | .orOp => "or_op"
  | .comparison => "comparison"
  | .condition => "condition"
  | .assignment => "assignment"
  | .assignments => "assignments"
  | .fieldList => "field_list"
  | .valueList => "value_list"
  | .whereClause => "where_clause"
  | .setClause => "set_clause"
  | .selectClause => "select_clause"
  | .insertWord => "kw_insert"
  | .valuesWord => "kw_values"
  | .selectWord => "kw_select"
  | .updateWord => "kw_update"
  | .setWord => "kw_set"
  | .deleteWord => "kw_delete"
  | .whereWord => "kw_where"
  | .insert => "insert"
  | .select => "select"
  | .update => "update"
  | .delete => "delete"
  | .statement => "statement"

/-- The given symbols without repetitions, in the order of `all`. -/
def arrange (symbols : List Symbol) : List Symbol :=
  all.filter fun symbol => symbols.contains symbol

end Symbol

/-- Joins alternatives: `a`, `a or b`, `a, b, or c`. -/
def joinAlternatives : List String → String
  | [] => ""
  | [only] => only
  | [first, second] => first ++ " or " ++ second
  | first :: rest => first ++ ", " ++ commas rest
where
  commas : List String → String
    | [] => ""
    | [last] => "or " ++ last
    | name :: rest => name ++ ", " ++ commas rest

/-- Why and where a text is not in the language. -/
structure Failure where
  expected : List Symbol
  line : Nat
  column : Nat
deriving DecidableEq

/-- The failure in words. -/
def Failure.message (failure : Failure) : String :=
  "expected " ++ joinAlternatives (failure.expected.map Symbol.name)

end Cardfile.Query
