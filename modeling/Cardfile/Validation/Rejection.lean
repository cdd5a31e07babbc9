import Cardfile.Date.Basic
import Cardfile.Decimal.Text
import Cardfile.Record

/-!
# Rejections

The reasons for which a store does not take a record.
-/

namespace Cardfile

/-- The values from a least to a greatest one, both included. -/
structure Span (α : Type) where
  least : α
  greatest : α
deriving DecidableEq

/-- Why a record is not accepted. -/
inductive Rejection where
  | firstNameLength (allowed : Span Nat)
  | lastNameLength (allowed : Span Nat)
  | dateOfBirth (earliest : Date) (latest : String)
  | number (allowed : Span Int)
  | letter (found : Char) (allowed : String)
  | points (allowed : Span Int16)
  | idTaken (id : RecordId)
deriving DecidableEq

namespace Rejection

/-- The reason in words. -/
def message : Rejection → String
  | .firstNameLength allowed => lengthMessage "first name" allowed
  | .lastNameLength allowed => lengthMessage "last name" allowed
  | .dateOfBirth earliest latest =>
      "date of birth must be between " ++ earliest.display ++ " and " ++
        latest
  | .number allowed =>
      "identification number must be between " ++
        (Decimal.ofInt allowed.least).display ++ " and " ++
        (Decimal.ofInt allowed.greatest).display
  | .letter found allowed =>
      "identification letter '" ++ found.toString ++ "' is not one of " ++
        allowed
  | .points allowed =>
      "points must be between " ++ Text.showInteger allowed.least.toInt ++
        " and " ++ Text.showInteger allowed.greatest.toInt
  | .idTaken id =>
      "id " ++ Text.showInteger id.toInt ++ " is already taken"
where
  lengthMessage (name : String) (allowed : Span Nat) : String :=
    name ++ " must be " ++ Nat.repr allowed.least ++ " to " ++
      Nat.repr allowed.greatest ++ " characters long"

end Rejection

end Cardfile
