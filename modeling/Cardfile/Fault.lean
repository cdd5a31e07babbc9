import Cardfile.Query.Symbol
import Cardfile.Validation.Rejection
import Cardfile.Value

/-!
# Faults

Everything that can go wrong, as causes.  The wording of each cause is in one
function, `Fault.message`.
-/

namespace Cardfile

/-- What the file system answers when it refuses. -/
inductive FileFault where
  | notFound
  | isDirectory
  | notADirectory
  | nameTooLong
  | badName
  | tooShort
  | notText
deriving DecidableEq

/-- Why a record could not be kept in a file or read from it. -/
inductive StorageFault where
  | shortSlot (length : Nat)
  | badDate (id : RecordId) (year month day : Int)
  | badLetter (id : RecordId) (code : Nat)
  | wideNumber (number : Decimal)
  | wideLetter (letter : Char) (id : RecordId)
  | file (fault : FileFault)
deriving DecidableEq

/-- Why the settings cannot be used. -/
inductive SettingsFault where
  | unreadable
  | unknownRules (name : String)
  | rulesFile (path : String) (fault : FileFault)
  | badRules
  | unknownArgument (argument : String)
deriving DecidableEq

/-- A state or a call that should not occur. -/
inductive InvariantFault where
  | exclusiveAccess
  | listing (listed kept : Nat)
  | indexSize (index : String) (entries records : Nat)
  | missing (id : RecordId)
deriving DecidableEq

/-- Why an operation was not carried out. -/
inductive Fault where
  | malformed (failure : Query.Failure)
  | unknownField (name : String)
  | unconvertible (field : String) (text : String) (reason : ConversionFault)
  | unequalLists (fields values : Nat)
  | rejected (id : RecordId) (reason : Rejection)
  | absent (id : RecordId)
  | settings (fault : SettingsFault)
  | storage (fault : StorageFault)
  | invariant (fault : InvariantFault)
deriving DecidableEq

namespace FileFault

/-- The cause in words. -/
def message : FileFault → String
  | .notFound => "No such file or directory (os error 2)"
  | .isDirectory => "Is a directory (os error 21)"
  | .notADirectory => "Not a directory (os error 20)"
  | .nameTooLong => "File name too long (os error 36)"
  | .badName => "file name contained an unexpected NUL byte"
  | .tooShort => "failed to fill whole buffer"
  | .notText => "stream did not contain valid UTF-8"

end FileFault

namespace StorageFault

/-- The number of bytes of a record in a file. -/
def slotSize : Nat := 278

/-- The cause in words. -/
def message : StorageFault → String
  | .shortSlot length =>
      "slot holds " ++ Nat.repr length ++ " bytes, expected " ++
        Nat.repr slotSize
  | .badDate id year month day =>
      "record #" ++ Text.showInteger id.toInt ++ " has no valid date " ++
        Text.showInteger year ++ "-" ++ Text.showInteger month ++ "-" ++
        Text.showInteger day
  | .badLetter id code =>
      "record #" ++ Text.showInteger id.toInt ++
        " has an invalid letter 0x" ++ String.ofList (Nat.toDigits 16 code)
  | .wideNumber number => number.display ++ " does not fit in 96 bits"
  | .wideLetter letter id =>
      "letter '" ++ letter.toString ++ "' of record #" ++
        Text.showInteger id.toInt ++ " needs more than two bytes"
  | .file fault => fault.message

end StorageFault

namespace SettingsFault

/-- The cause in words. -/
def message : SettingsFault → String
  | .unreadable => "unusable settings"
  | .unknownRules name => "unknown validation rule set '" ++ name ++ "'"
  | .rulesFile path fault => "cannot read " ++ path ++ ": " ++ fault.message
  | .badRules => "invalid rule sets"
  | .unknownArgument argument => "unknown argument '" ++ argument ++ "'"

end SettingsFault

namespace InvariantFault

/-- The cause in words. -/
def message : InvariantFault → String
  | .exclusiveAccess => "a mutating statement needs exclusive access"
  | .listing listed kept =>
      Nat.repr listed ++ " records listed but " ++ Nat.repr kept ++ " kept"
  | .indexSize index entries records =>
      index ++ " index holds " ++ Nat.repr entries ++ " entries for " ++
        Nat.repr records ++ " records"
  | .missing id =>
      "record #" ++ Text.showInteger id.toInt ++
        " is missing from an index bucket"

end InvariantFault

namespace Fault

/-- The cause in words. -/
def message : Fault → String
  | .malformed failure => "Syntax error: " ++ failure.message
  | .unknownField name => "Unknown field: '" ++ name ++ "'"
  | .unconvertible field text reason =>
      "Cannot convert '" ++ text ++ "' for field '" ++ field ++ "': " ++
        reason.message
  | .unequalLists fields values =>
      "Expected as many values as fields, got " ++ Nat.repr fields ++
        " field(s) and " ++ Nat.repr values ++ " value(s)"
  | .rejected id reason =>
      "Record #" ++ Text.showInteger id.toInt ++ " is invalid: " ++
        reason.message
  | .absent id => "Record #" ++ Text.showInteger id.toInt ++ " does not exist"
  | .settings fault => "Config error: " ++ fault.message
  | .storage fault => "Persistence error: " ++ fault.message
  | .invariant fault =>
      "Internal invariant violated: " ++ fault.message

end Fault

end Cardfile
