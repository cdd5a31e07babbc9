import Cardfile.Json.Basic
import Cardfile.Service.MediaType

/-!
# Requests

A request carries one statement as JSON: an object with the member
`statement`, or an array of just that text.  Whatever follows the value is
left alone.
-/

namespace Cardfile.Service

open Json

/-- A request to the service. -/
structure Request where
  method : String := "POST"
  path : String := "/v1/query"
  mediaType : Option String := none
  body : String := ""

/-- Why the body of a request has no statement: it is no JSON, or JSON of
another shape. -/
inductive BodyFault where
  | malformed
  | unfit
deriving DecidableEq

/-- The fault of a value that should be a text.  Arrays and objects are not
looked into. -/
def mismatch : Tree → BodyFault
  | .broken => .malformed
  | .text none => .malformed
  | .number literal => if literal.isHuge then .malformed else .unfit
  | _ => .unfit

/-- A text, or the fault of not being one. -/
def textOf : Tree → Except BodyFault String
  | .text (some content) => .ok content
  | tree => .error (mismatch tree)

/-- Finds the statement among the members of an object, after one that was
found before. -/
def statementOf (found : Option String) :
    List (Option String × Tree) → Except BodyFault String
  | [] =>
      match found with
      | some statement => .ok statement
      | none => .error .unfit
  | (none, _) :: _ => .error .malformed
  | (some key, value) :: rest =>
      if key = "statement" then
        if found.isSome then .error .unfit
        else do statementOf (some (← textOf value)) rest
      else if value.isWhole then statementOf found rest
      else .error .malformed

/-- Reads the statement of a body.  The first mistake from the front counts.
-/
def readBody (body : String) : Except BodyFault String :=
  match (readFront body).1 with
  | .object members => statementOf none members
  | .array [] => .error .unfit
  | .array [item] => textOf item
  | .array (item :: _) =>
      match textOf item with
      | .ok _ => .error .malformed
      | .error fault => .error fault
  | tree => .error (mismatch tree)

end Cardfile.Service
