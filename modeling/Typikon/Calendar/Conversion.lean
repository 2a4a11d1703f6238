import Typikon.Calendar.CivilDate
import Typikon.Calendar.Error

/-!
The two ways between labels and civil dates. Both reckonings place a day in a year that begins on
1 March, so that the leap day comes last and the months before a given one have `(153 m + 2) / 5`
days; they differ in how many days they count before such a year.
-/

namespace Typikon.Reckoning

/-- Day number of the day before 1 March of the year -4800 in the Gregorian calendar. -/
def gregorianEpoch : Int := -1753470

/-- Day number of the day before 1 March of the year -4800 in the Julian calendar. -/
def julianEpoch : Int := -1753508

/-- The year beginning on 1 March to which a month belongs, counted from -4800. -/
def marchYear (year : Int) (month : Nat) : Int :=
  year + 4800 - if month ≤ 2 then 1 else 0

/-- The place of a day in its year beginning on 1 March, the first day being 1. -/
def marchDay (month day : Nat) : Int :=
  (153 * (((month : Int) + 9) % 12) + 2) / 5 + day

/-- The label of a day of a year beginning on 1 March, where the first day is 0. -/
def ofMarchDay (marchYear offset : Int) : Label :=
  let m := (5 * offset + 2) / 153
  { year := marchYear - 4800 + m / 10
    month := (m + 3 - 12 * (m / 10)).toNat
    day := (offset - (153 * m + 2) / 5 + 1).toNat }

def dayNumber : Reckoning → Label → Int
  | .gregorian, ⟨year, month, day⟩ =>
    let y := marchYear year month
    gregorianEpoch + 365 * y + y / 4 - y / 100 + y / 400 + marchDay month day
  | .julian, ⟨year, month, day⟩ =>
    let y := marchYear year month
    julianEpoch + 365 * y + y / 4 + marchDay month day

/-- The numbers that come up, one after another, in counting the days to a Julian label. The last
but one is its Julian Day Number. -/
def julianCounts (label : Label) : List Int :=
  let y := marchYear label.year label.month
  let d := marchDay label.month label.day
  [label.year + 4800, y, 365 * y, d + 365 * y, d + 365 * y + y / 4, d + 365 * y + y / 4 - 32083,
    Reckoning.julian.dayNumber label]

/-- Whether the days to a label can be counted. In the Julian calendar that is done in a signed word
of 32 bits. -/
def CanCount : Reckoning → Label → Prop
  | .gregorian, _ => True
  | .julian, label => ∀ n ∈ julianCounts label, -2147483648 ≤ n ∧ n ≤ 2147483647

instance (r : Reckoning) (label : Label) : Decidable (r.CanCount label) :=
  match r with
  | .gregorian => inferInstanceAs (Decidable True)
  | .julian =>
    inferInstanceAs (Decidable (∀ n ∈ julianCounts label, -2147483648 ≤ n ∧ n ≤ 2147483647))

def toCivil (r : Reckoning) (label : Label) : Except CalendarError CivilDate :=
  if ¬(1 ≤ label.month ∧ label.month ≤ 12) then
    .error (.monthOutOfRange label.month)
  else if ¬(1 ≤ label.day ∧ label.day ≤ 31) then
    .error (.dayOutOfRange label.day)
  else if r.daysInMonth label.year label.month < label.day then
    .error (.noSuchDate label r)
  else if ¬r.CanCount label then
    .error .pastLastDate
  else
    let date : CivilDate := ⟨r.dayNumber label⟩
    if date.Supported then .ok date else .error (.noSuchDate label r)

def label : Reckoning → CivilDate → Label
  | .gregorian, date =>
    let n := date.dayNumber - gregorianEpoch - 1
    let century := (4 * n + 3) / 146097
    let dayOfCentury := n - 146097 * century / 4
    let year := (4 * dayOfCentury + 3) / 1461
    ofMarchDay (100 * century + year) (dayOfCentury - 1461 * year / 4)
  | .julian, date =>
    let n := date.dayNumber - julianEpoch - 1
    let year := (4 * n + 3) / 1461
    ofMarchDay year (n - 1461 * year / 4)

def read (text : String) : Except CalendarError Reckoning :=
  match vocabulary.find? text with
  | some r => .ok r
  | none => .error (.unknownCalendar text)

end Typikon.Reckoning
