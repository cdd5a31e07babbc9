import Cardfile.Record
import Cardfile.Date.Reading

/-!
# Values of fields

A value is what a field's text stands for: one of six kinds.
-/

namespace Cardfile

/-- A value that a field may be compared with or set to. -/
inductive Value where
  | text (content : String)
  | date (day : Date)
  | decimal (number : Decimal)
  | int (number : Int32)
  | short (number : Int16)
  | letter (character : Char)
deriving DecidableEq

/-- Why a text stands for no value of a field. -/
inductive ConversionFault where
  | numeral (fault : Text.NumeralFault)
  | notADate
  | notADecimal
  | notALetter
deriving DecidableEq

namespace ConversionFault

/-- The reason in words. -/
def message : ConversionFault → String
  | .numeral .empty => "cannot parse integer from empty string"
  | .numeral .badDigit => "invalid digit found in string"
  | .numeral .tooLarge => "number too large to fit in target type"
  | .numeral .tooSmall => "number too small to fit in target type"
  | .notADate => "expected a date as YYYY-MM-DD or MM/DD/YYYY"
  | .notADecimal => "expected a decimal number"
  | .notALetter => "expected exactly one character"

end ConversionFault

namespace Value

/-- The value as it is shown to people. -/
def display : Value → String
  | .text content => content
  | .date day => day.display
  | .decimal number => number.display
  | .int number => Text.showInteger number.toInt
  | .short number => Text.showInteger number.toInt
  | .letter character => character.toString

/-- Reads a whole number of 32 bits, blanks around it aside. -/
def readInt (text : String) : Except ConversionFault Int32 :=
  match Text.readSigned 32 (Text.trimmed text.toList) with
  | .ok number => .ok (Int32.ofInt number)
  | .error fault => .error (.numeral fault)

/-- Reads a whole number of 16 bits, blanks around it aside. -/
def readShort (text : String) : Except ConversionFault Int16 :=
  match Text.readSigned 16 (Text.trimmed text.toList) with
  | .ok number => .ok (Int16.ofInt number)
  | .error fault => .error (.numeral fault)

/-- Reads a text of exactly one character. -/
def readLetter? (text : String) : Option Char :=
  match text.toList with
  | [character] => some character
  | _ => none

end Value

end Cardfile
