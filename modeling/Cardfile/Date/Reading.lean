import Cardfile.Date.Basic
import Cardfile.Text.Blank

/-!
# Reading dates

Two spellings are read in a field: the year first with hyphens, or the month
first with slashes.  A rule file has a freer form of the first spelling, with
blanks around its parts and with years of any length behind a sign.
-/

namespace Cardfile.Date

/-- The value of a text of ASCII digits whose length lies between two bounds.
-/
def digits? (shortest longest : Nat) (cs : List Char) : Option Nat :=
  if shortest ≤ cs.length ∧ cs.length ≤ longest then
    Text.ofDigits? 10 Text.digit? cs
  else none

/-- The parts of a text between the places where a character stands. -/
def parts (mark : Char) : List Char → List (List Char)
  | [] => [[]]
  | c :: cs =>
      if c = mark then [] :: parts mark cs
      else
        match parts mark cs with
        | part :: rest => (c :: part) :: rest
        | [] => [[c]]

/-- Reads `YYYY-MM-DD`; month and day may have one digit. -/
def readYearFirst? (cs : List Char) : Option Date :=
  match parts '-' cs with
  | [year, month, day] => do
      of? (← digits? 4 4 year) (← digits? 1 2 month) (← digits? 1 2 day)
  | _ => none

/-- Reads `MM/DD/YYYY`; month and day may have one digit. -/
def readMonthFirst? (cs : List Char) : Option Date :=
  match parts '/' cs with
  | [month, day, year] => do
      of? (← digits? 4 4 year) (← digits? 1 2 month) (← digits? 1 2 day)
  | _ => none

/-- Reads a date in either spelling, blanks around it aside. -/
def read? (text : String) : Option Date :=
  let cs := Text.trimmed text.toList
  (readYearFirst? cs).orElse fun _ => readMonthFirst? cs

/-- Reads a number at the start of the characters, blanks before it aside: up
to `longest` unsigned digits or, where a sign is allowed, any number of digits
behind it. -/
def takeNumber? (longest : Nat) (signed : Bool) (cs : List Char) :
    Option (Int × List Char) :=
  let take (longest : Nat) (cs : List Char) : Option (Nat × List Char) := do
    let run := (cs.takeWhile Char.isDigit).take longest
    let number ← digits? 1 longest run
    pure (number, cs.drop run.length)
  match cs.dropWhile Text.isBlank with
  | '+' :: rest =>
      if signed then (take rest.length rest).map fun (n, rest) => (↑n, rest)
      else none
  | '-' :: rest =>
      if signed then (take rest.length rest).map fun (n, rest) => (-↑n, rest)
      else none
  | rest => (take longest rest).map fun (n, rest) => (↑n, rest)

/-- Drops a hyphen and the blanks before it. -/
def dropHyphen? (cs : List Char) : Option (List Char) :=
  match cs.dropWhile Text.isBlank with
  | '-' :: rest => some rest
  | _ => none

/-- Reads the free form of a date. -/
def readFree? (text : String) : Option Date := do
  let (year, rest) ← takeNumber? 4 true text.toList
  let rest ← dropHyphen? rest
  let (month, rest) ← takeNumber? 2 false rest
  let rest ← dropHyphen? rest
  let (day, rest) ← takeNumber? 2 false rest
  if rest.all Text.isBlank then of? year month.toNat day.toNat else none

end Cardfile.Date
