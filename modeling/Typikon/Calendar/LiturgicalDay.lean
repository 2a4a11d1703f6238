import Typikon.Calendar.Pascha

/-!
The liturgical day: everything about a date that the services of the day depend on. The movable
cycle hangs on Pascha, the eight modes run from Thomas Sunday to the next Pascha, the eleven
Resurrection Gospels from All Saints to All Saints, and the Lukan readings from the Monday after the
Sunday after the Elevation of the Cross.
-/

namespace Typikon

structure LiturgicalDay where
  reckoning : Reckoning
  date : CivilDate
  year : Int
  month : Nat
  day : Nat
  weekday : Weekday
  paschaLastYear : CivilDate
  paschaThisYear : CivilDate
  paschaLast : CivilDate
  paschaNext : CivilDate
  triodionStartLastYear : CivilDate
  triodionStartThisYear : CivilDate
  triodionStartNextYear : CivilDate
  triodionStartLast : CivilDate
  palmSunday : CivilDate
  pentecost : CivilDate
  allSaintsLastYear : CivilDate
  allSaintsThisYear : CivilDate
  greatLentStart : CivilDate
  thomasSunday : CivilDate
  palmSundayNext : CivilDate
  lazarusSaturdayNext : CivilDate
  elevationLast : CivilDate
  sundayAfterElevationLast : CivilDate
  lukanStartLast : CivilDate
  isPascha : Bool
  isTriodion : Bool
  isPentecostarion : Bool
  /-- The day of the Triodion and Pentecostarion, from 1, or 0 outside both. -/
  dayOfSeason : Int
  /-- Days from the latest start of the Triodion, from 1. -/
  daysSinceTriodionStart : Int
  /-- Days from 15 January to this year's start of the Triodion. -/
  daysUntilTriodionStart : Int
  sundaysBeforeTriodionStart : Int
  modeOfWeek : Nat
  /-- The Resurrection Gospel of a Sunday, 1 to 11, or 0 on other days. -/
  eothinon : Nat
  daysSinceSundayAfterElevation : Int
  daysSinceLukanStart : Int
  computedDayOfSeason : Int
  computedDaysSinceTriodionStart : Int
deriving DecidableEq

/-- The days of the years around a date from which its liturgical day is counted. -/
structure Anchors where
  paschaLastYear : CivilDate
  paschaThisYear : CivilDate
  paschaNextYear : CivilDate
  midJanuary : CivilDate
  elevationLastYear : CivilDate
  elevationThisYear : CivilDate

namespace Anchors

def ofYear (r : Reckoning) (year : Int) : Except CalendarError Anchors := do
  return {
    paschaLastYear := ← Pascha.date r (year - 1)
    paschaThisYear := ← Pascha.date r year
    paschaNextYear := ← Pascha.date r (year + 1)
    midJanuary := ← r.toCivil ⟨year, 1, 15⟩
    elevationThisYear := ← Elevation.date r year
    elevationLastYear := ← Elevation.date r (year - 1) }

end Anchors

def IsLiturgicalYear (year : Int) : Prop :=
  1583 ≤ year ∧ year ≤ 9999

instance (year : Int) : Decidable (IsLiturgicalYear year) :=
  inferInstanceAs (Decidable (_ ∧ _))

namespace LiturgicalDay

/-- The modes from Pascha to Bright Saturday. The grave mode, the seventh, is passed over. -/
def brightWeekModes : List Nat := [1, 2, 3, 4, 5, 6, 8]

/-- The mode of the week that a number of days after Thomas Sunday falls in. -/
def modeAfterThomasSunday (days : Int) : Nat :=
  (days / 7 % 8 + 1).toNat

/-- The Resurrection Gospel of a Sunday that is a number of days after All Saints. The remainder has
the sign of the weeks, and the Gospel is cut down to a word of 8 bits. -/
def gospelAfterAllSaints (days : Int) : Nat :=
  (((days / 7).tmod 11 + 1) % 256).toNat

def ofAnchors (r : Reckoning) (date : CivilDate) (a : Anchors) : LiturgicalDay :=
  let label := r.label date
  let paschaLast := if a.paschaThisYear ≤ date then a.paschaThisYear else a.paschaLastYear
  let paschaNext := if date < a.paschaThisYear then a.paschaThisYear else a.paschaNextYear
  let triodionThisYear := a.paschaThisYear - (70 : Int)
  let triodionLastYear := a.paschaLastYear - (70 : Int)
  let triodionLast := if date < triodionThisYear then triodionLastYear else triodionThisYear
  let allSaintsThisYear := a.paschaThisYear + (56 : Int)
  let allSaintsLastYear := a.paschaLastYear + (56 : Int)
  let isPentecostarion : Bool := a.paschaThisYear ≤ date && date ≤ allSaintsThisYear
  let isTriodion : Bool := triodionThisYear ≤ date && date < a.paschaThisYear
  let dayOfSeason := if isTriodion || isPentecostarion then date - triodionThisYear + 1 else 0
  let daysSinceTriodionStart := date - triodionLast + 1
  let daysUntilTriodionStart := triodionThisYear - a.midJanuary
  let thomasSunday := paschaLast + (7 : Int)
  let allSaintsLast := if date < allSaintsThisYear then allSaintsLastYear else allSaintsThisYear
  let mode := modeAfterThomasSunday (date - thomasSunday)
  let sundayThisYear := Elevation.sundayAfter a.elevationThisYear
  let sundayLastYear := Elevation.sundayAfter a.elevationLastYear
  let sundayLast := if date < sundayThisYear then sundayLastYear else sundayThisYear
  let lukanStartThisYear := sundayThisYear + (1 : Int)
  let lukanStartLast :=
    if date < lukanStartThisYear then sundayLastYear + (1 : Int) else lukanStartThisYear
  { reckoning := r
    date
    year := label.year
    month := label.month
    day := label.day
    weekday := date.weekday
    paschaLastYear := a.paschaLastYear
    paschaThisYear := a.paschaThisYear
    paschaLast
    paschaNext
    triodionStartLastYear := triodionLastYear
    triodionStartThisYear := triodionThisYear
    triodionStartNextYear := paschaNext - (70 : Int)
    triodionStartLast := triodionLast
    palmSunday := a.paschaThisYear - (7 : Int)
    pentecost := a.paschaThisYear + (49 : Int)
    allSaintsLastYear
    allSaintsThisYear
    greatLentStart := a.paschaThisYear - (48 : Int)
    thomasSunday
    palmSundayNext := paschaNext - (7 : Int)
    lazarusSaturdayNext := paschaNext - (8 : Int)
    elevationLast := if date < sundayThisYear then a.elevationLastYear else a.elevationThisYear
    sundayAfterElevationLast := sundayLast
    lukanStartLast
    isPascha := date = a.paschaThisYear
    isTriodion
    isPentecostarion
    dayOfSeason
    daysSinceTriodionStart
    daysUntilTriodionStart
    sundaysBeforeTriodionStart := daysUntilTriodionStart.tdiv 7
    modeOfWeek :=
      if isPentecostarion then brightWeekModes.getD (dayOfSeason - 71).toNat mode else mode
    eothinon :=
      if date.weekday = .sunday then gospelAfterAllSaints (date - allSaintsLast) else 0
    daysSinceSundayAfterElevation := date - sundayLast
    daysSinceLukanStart := date - lukanStartLast + 1
    computedDayOfSeason := dayOfSeason
    computedDaysSinceTriodionStart := daysSinceTriodionStart }

def ofDate (r : Reckoning) (date : CivilDate) : Except CalendarError LiturgicalDay :=
  let year := (r.label date).year
  if IsLiturgicalYear year then (Anchors.ofYear r year).map (ofAnchors r date)
  else .error (.yearOutOfRange year)

def dateOfLabel (r : Reckoning) (label : Label) : Except CalendarError CivilDate :=
  if IsLiturgicalYear label.year then r.toCivil label else .error (.yearOutOfRange label.year)

def ofLabel (r : Reckoning) (label : Label) : Except CalendarError LiturgicalDay := do
  ofDate r (← dateOfLabel r label)

/-- The first date on or after a reference that has a month and day, among the given years. When no
year has one, the error tells of the first year without such a day. -/
def nextDate (r : Reckoning) (month day : Nat) (reference : CivilDate) :
    List Int → Option CalendarError → Except CalendarError CivilDate
  | [], none => .error (.noSuchDate ⟨(r.label reference).year, month, day⟩ r)
  | [], some missing => .error missing
  | year :: years, missing =>
    match dateOfLabel r ⟨year, month, day⟩ with
    | .ok date =>
      if reference ≤ date then .ok date else nextDate r month day reference years missing
    | .error (.noSuchDate label r') =>
      nextDate r month day reference years (missing.or (some (.noSuchDate label r')))
    | .error e => .error e

/-- The liturgical day of a month and day without a year: the next one on or after a reference.
Eight years suffice for 29 February across a century without it. -/
def ofMonthDay (r : Reckoning) (month day : Nat) (reference : CivilDate) :
    Except CalendarError LiturgicalDay := do
  let year := (r.label reference).year
  let years := (List.range 9).map fun (n : Nat) => year + n
  ofDate r (← nextDate r month day reference years none)

/-- The day with its day of season forced. Zero restores the computed one. -/
def withDayOfSeason (d : LiturgicalDay) (day : Int) : LiturgicalDay :=
  if day = 0 then
    { d with
      dayOfSeason := d.computedDayOfSeason
      daysSinceTriodionStart := d.computedDaysSinceTriodionStart }
  else { d with dayOfSeason := day, daysSinceTriodionStart := day }

def isSunday (d : LiturgicalDay) : Bool := d.weekday = .sunday

def isSaturday (d : LiturgicalDay) : Bool := d.weekday = .saturday

def isWeekday (d : LiturgicalDay) : Bool := !d.isSunday && !d.isSaturday

/-- Days from Pascha, from 1, during the Pentecostarion. They are counted in a signed word of 64
bits, which the day of a season that is forced can be too small for. -/
def pentecostarionDay (d : LiturgicalDay) : Except CalendarError (Option Int) :=
  if ¬d.isPentecostarion then .ok none
  else if -9223372036854775808 ≤ d.dayOfSeason - 70 then .ok (some (d.dayOfSeason - 70))
  else .error .pastLastDate

def pentecostarionDay? (d : LiturgicalDay) : Option Int := d.pentecostarionDay.toOption.join

/-- The weeks of Great Lent: the first and the last day of the Triodion in each, and its number.
Holy Week is the seventh. -/
def weeksOfLent : List (Int × Int × Nat) :=
  [(23, 29, 1), (30, 36, 2), (37, 43, 3), (44, 50, 4), (51, 57, 5), (58, 64, 6), (65, 70, 7)]

def weekOfLent? (d : LiturgicalDay) : Option Nat :=
  (weeksOfLent.find? fun row =>
    row.1 ≤ d.daysSinceTriodionStart && d.daysSinceTriodionStart ≤ row.2.1).map (·.2.2)

/-- The week of the Lukan cycle, from 1. -/
def weekOfLukanCycle (d : LiturgicalDay) : Int :=
  if d.daysSinceLukanStart < 8 then 1 else d.daysSinceLukanStart / 7 + 1

end LiturgicalDay

end Typikon
