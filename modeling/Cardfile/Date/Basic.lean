import Std.Data.TreeMap.Lemmas
import Cardfile.Text.Numeral

/-!
# Calendar dates

Days of the Gregorian calendar extended in both directions, with a year zero.
A date carries the proof that its day exists, and dates are ordered by year,
then month, then day.
-/

namespace Cardfile

namespace Date

/-- Whether a year has a 29th of February. -/
def isLeap (year : Int) : Bool :=
  year % 4 == 0 && (year % 100 != 0 || year % 400 == 0)

/-- The number of days of a month, zero where there is no such month. -/
def daysInMonth (year : Int) (month : Nat) : Nat :=
  match month with
  | 1 | 3 | 5 | 7 | 8 | 10 | 12 => 31
  | 4 | 6 | 9 | 11 => 30
  | 2 => if isLeap year then 29 else 28
  | _ => 0

/-- The years that a date may have. -/
def isYear (year : Int) : Bool :=
  -262143 ≤ year && year ≤ 262142

/-- Whether a year, a month and a day name a day of the calendar. -/
def isDay (year : Int) (month day : Nat) : Bool :=
  isYear year && 1 ≤ day && day ≤ daysInMonth year month

end Date

/-- A day of the calendar. -/
@[ext]
structure Date where
  year : Int
  month : Nat
  day : Nat
  onCalendar : Date.isDay year month day = true := by decide
deriving DecidableEq

namespace Date

/-- The date of a year, a month and a day, if there is such a day. -/
def of? (year : Int) (month day : Nat) : Option Date :=
  if h : isDay year month day = true then some ⟨year, month, day, h⟩ else none

/-- The first day of 1970. -/
def epoch : Date := { year := 1970, month := 1, day := 1 }

instance : Inhabited Date := ⟨epoch⟩

/-- Dates are compared by year, then month, then day. -/
instance : Ord Date where
  compare := compareLex (compareOn Date.year)
    (compareLex (compareOn Date.month) (compareOn Date.day))

instance : Std.TransOrd Date :=
  inferInstanceAs (Std.TransCmp (compareLex (compareOn Date.year)
    (compareLex (compareOn Date.month) (compareOn Date.day))))

theorem compare_eq (left right : Date) :
    compare left right = ((compare left.year right.year).then
      ((compare left.month right.month).then
        (compare left.day right.day))) := rfl

instance : Std.LawfulEqOrd Date where
  eq_of_compare {left right} same := by
    rw [compare_eq, Ordering.then_eq_eq, Ordering.then_eq_eq,
      Std.compare_eq_iff_eq, Std.compare_eq_iff_eq, Std.compare_eq_iff_eq]
      at same
    exact Date.ext same.1 same.2.1 same.2.2

/-- Whether one date lies before another. -/
def before (left right : Date) : Bool :=
  compare left right == .lt

/-- A year has at least four digits, and a sign unless it has four. -/
def showYear (year : Int) : String :=
  let digits := Text.padded 4 year.natAbs
  if year < 0 then "-" ++ digits
  else if 9999 < year then "+" ++ digits
  else digits

/-- A date is written as year, month and day. -/
def display (date : Date) : String :=
  showYear date.year ++ "-" ++ Text.padded 2 date.month ++ "-" ++
    Text.padded 2 date.day

end Date

end Cardfile
