/-!
# Date stamps

The moment at which a file was generated, as its header shows it: `Sat Mar  7 09:05:01 2015`.
Dates are those of the Gregorian calendar, continued backwards through a year 0.
-/

namespace EnumGen.Code

/-- A local date and time. -/
structure Stamp where
  year : Int
  month : Nat
  day : Nat
  hour : Nat
  minute : Nat
  second : Nat
  deriving DecidableEq, Repr

namespace Stamp

/-- The months by their abbreviated names. -/
def monthNames : List String :=
  ["Jan", "Feb", "Mar", "Apr", "May", "Jun", "Jul", "Aug", "Sep", "Oct", "Nov", "Dec"]

/-- The days of the week by their abbreviated names. -/
def dayNames : List String :=
  ["Sun", "Mon", "Tue", "Wed", "Thu", "Fri", "Sat"]

/-- Days from the first of March of the year 0 to a date. Years are counted from March, so that a
leap day is the last day of its year, and the months from March on begin after
`(153 * m + 2) / 5` days. -/
def dayNumber (s : Stamp) : Int :=
  let year := if s.month ≤ 2 then s.year - 1 else s.year
  let month := (s.month + 9) % 12
  365 * year + year.fdiv 4 - year.fdiv 100 + year.fdiv 400 + (153 * month + 2) / 5 + s.day - 1

/-- The day of the week, counted from Sunday; the first of March of the year 0 was a Wednesday. -/
def weekday (s : Stamp) : Nat :=
  ((s.dayNumber + 3) % 7).toNat

/-- A number filled up in front to a width. -/
def pad (filler : Char) (width n : Nat) : String :=
  let digits := toString n
  String.ofList (List.replicate (width - digits.length) filler) ++ digits

/-- Four digits, more if they are needed; a sign stands before a negative year and before one of
more than four digits. -/
def yearText (year : Int) : String :=
  (if year < 0 then "-" else if 9999 < year then "+" else "") ++ pad '0' 4 year.natAbs

/-- The stamp as the header of a generated file shows it. -/
def text (s : Stamp) : String :=
  dayNames.getD s.weekday "" ++ " " ++ monthNames.getD (s.month - 1) "" ++ " " ++
    pad ' ' 2 s.day ++ " " ++ pad '0' 2 s.hour ++ ":" ++ pad '0' 2 s.minute ++ ":" ++
    pad '0' 2 s.second ++ " " ++ yearText s.year

end Stamp

end EnumGen.Code
