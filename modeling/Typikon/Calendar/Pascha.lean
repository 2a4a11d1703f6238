import Typikon.Calendar.Conversion

/-!
The Orthodox Paschalion, and the Sunday after the Elevation of the Cross. Both are given for a year
of a reckoning and found as civil dates.
-/

namespace Typikon

namespace Pascha

/-- Days from 21 March to Pascha. Gauss's congruence counts them in the Julian calendar; in the
Gregorian one the days by which the calendars have drifted apart are added. -/
def daysAfterEquinox (r : Reckoning) (year : Int) : Int :=
  let n1 := (19 * (year % 19) + 16) % 30
  let n2 := (2 * (year % 4) + 4 * (year % 7) + 6 * n1) % 7
  match r with
  | .julian => n1 + n2
  | .gregorian =>
    let century := year.tdiv 100
    n1 + n2 + (century - century.tdiv 4 - 2)

/-- Month and day of Pascha. The day is an unsigned word of 32 bits, and a day of May may lie past
the 31st. -/
def monthDay (r : Reckoning) (year : Int) : Nat × Nat :=
  let n := daysAfterEquinox r year
  if n > 40 then (5, (n - 40).toNat)
  else if n > 10 then (4, (n - 10).toNat)
  else (3, ((n + 21) % 4294967296).toNat)

/-- Days from 1 March to a day that `monthDay` gives. -/
def offset : Nat × Nat → Int
  | (3, day) => ((day : Int) - 1) % 4294967296
  | (4, day) => 31 + day - 1
  | (_, day) => 61 + day - 1

def date (r : Reckoning) (year : Int) : Except CalendarError CivilDate := do
  let marchFirst ← r.toCivil ⟨year, 3, 1⟩
  let date := marchFirst + offset (monthDay r year)
  if date.Supported then return date else throw .pastLastDate

end Pascha

namespace Elevation

/-- The Elevation of the Cross, 14 September. -/
def date (r : Reckoning) (year : Int) : Except CalendarError CivilDate :=
  r.toCivil ⟨year, 9, 14⟩

def sundayAfter (date : CivilDate) : CivilDate :=
  date + (7 - date.dayNumber % 7)

def sunday (r : Reckoning) (year : Int) : Except CalendarError CivilDate := do
  let sunday := sundayAfter (← date r year)
  if sunday.Supported then return sunday else throw .pastLastDate

end Elevation

end Typikon
