import Cardfile.Engine
import Cardfile.Service.Request

/-!
# The service

The service runs the statements of requests on one store.  It has a single
address that takes a single method; preflight requests are always answered,
and every reply may be read from any origin.
-/

namespace Cardfile.Service

/-- What the service says about a statement. -/
inductive Report where
  | done (answer : Answer)
  | failed (message : String)
deriving DecidableEq

/-- A reply of the service. -/
structure Reply where
  status : Nat
  origin : String := "*"
  report : Option Report := none
deriving DecidableEq

/-- The status of a fault of a statement. -/
def statusOf : Fault → Nat
  | .malformed _ | .unknownField _ | .unconvertible .. | .unequalLists .. =>
      400
  | .rejected .. => 422
  | .absent _ => 404
  | .settings _ | .storage _ | .invariant _ => 500

/-- The address of the service. -/
def address : String := "/v1/query"

/-- Whether a path is the address, a query string or fragment aside. -/
def isAddress (path : String) : Bool :=
  path.toList.takeWhile (fun c => c != '?' && c != '#') == address.toList

/-- The statement of a request, or the status with which it is turned away. -/
def screen (request : Request) : Except Nat String :=
  if request.method = "OPTIONS" then .error 200
  else if !isAddress request.path then .error 404
  else if request.method ≠ "POST" then .error 405
  else if !request.mediaType.any isJson then .error 415
  else
    match readBody request.body with
    | .ok statement => .ok statement
    | .error .malformed => .error 400
    | .error .unfit => .error 422

/-- The reply to what a statement came to. -/
def replyTo : Except Fault Answer → Reply
  | .ok answer => { status := 200, report := some (.done answer) }
  | .error fault =>
      { status := statusOf fault, report := some (.failed fault.message) }

/-- Answers a request. -/
def answer (engine : Engine) (store : Store) (request : Request) :
    Reply × Engine × Store :=
  match screen request with
  | .error status => ({ status := status }, engine, store)
  | .ok statement =>
      let (outcome, engine, store) := engine.execute store statement
      (replyTo outcome, engine, store)

end Cardfile.Service
