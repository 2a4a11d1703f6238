/-!
Civil dates: days of the proleptic Gregorian calendar, held as a running count of days. Labels in
years, months and days are the business of a reckoning.
-/

namespace Typikon

inductive Weekday where
  | monday
  | tuesday
  | wednesday
  | thursday
  | friday
  | saturday
  | sunday
deriving DecidableEq

namespace Weekday

def all : List Weekday :=
  [.monday, .tuesday, .wednesday, .thursday, .friday, .saturday, .sunday]

/-- The number of a day in the liturgical week, from Sunday, 1, to Saturday, 7. -/
def number : Weekday → Nat
  | .sunday => 1
  | .monday => 2
  | .tuesday => 3
  | .wednesday => 4
  | .thursday => 5
  | .friday => 6
  | .saturday => 7

def abbreviation : Weekday → String
  | .monday => "Mon"
  | .tuesday => "Tue"
  | .wednesday => "Wed"
  | .thursday => "Thu"
  | .friday => "Fri"
  | .saturday => "Sat"
  | .sunday => "Sun"

def name : Weekday → String
  | .monday => "Monday"
  | .tuesday => "Tuesday"
  | .wednesday => "Wednesday"
  | .thursday => "Thursday"
  | .friday => "Friday"
  | .saturday => "Saturday"
  | .sunday => "Sunday"

end Weekday

/-- A day. Day 1 is 1 January of the year 1 in the Gregorian calendar, a Monday. -/
structure CivilDate where
  dayNumber : Int
deriving DecidableEq

namespace CivilDate

instance : LE CivilDate := ⟨fun a b => a.dayNumber ≤ b.dayNumber⟩

instance : LT CivilDate := ⟨fun a b => a.dayNumber < b.dayNumber⟩

instance (a b : CivilDate) : Decidable (a ≤ b) :=
  inferInstanceAs (Decidable (a.dayNumber ≤ b.dayNumber))

instance (a b : CivilDate) : Decidable (a < b) :=
  inferInstanceAs (Decidable (a.dayNumber < b.dayNumber))

/-- The date a number of days later. -/
instance : HAdd CivilDate Int CivilDate := ⟨fun date days => ⟨date.dayNumber + days⟩⟩

/-- The date a number of days earlier. -/
instance : HSub CivilDate Int CivilDate := ⟨fun date days => ⟨date.dayNumber - days⟩⟩

/-- The days from the second date to the first. -/
instance : HSub CivilDate CivilDate Int := ⟨fun a b => a.dayNumber - b.dayNumber⟩

/-- The dates from 1 January -262143 to 31 December 262142, the only ones that labels and texts can
name. -/
def Supported (date : CivilDate) : Prop :=
  -95746129 ≤ date.dayNumber ∧ date.dayNumber ≤ 95745399

instance (date : CivilDate) : Decidable date.Supported :=
  inferInstanceAs (Decidable (_ ∧ _))

def weekday (date : CivilDate) : Weekday :=
  match (date.dayNumber % 7).toNat with
  | 0 => .sunday
  | 1 => .monday
  | 2 => .tuesday
  | 3 => .wednesday
  | 4 => .thursday
  | 5 => .friday
  | _ => .saturday

@[simp]
theorem dayNumber_add (date : CivilDate) (days : Int) :
    (date + days).dayNumber = date.dayNumber + days := rfl

@[simp]
theorem dayNumber_sub (date : CivilDate) (days : Int) :
    (date - days).dayNumber = date.dayNumber - days := rfl

theorem sub_eq (a b : CivilDate) : a - b = a.dayNumber - b.dayNumber := rfl

theorem le_iff {a b : CivilDate} : a ≤ b ↔ a.dayNumber ≤ b.dayNumber := Iff.rfl

theorem lt_iff {a b : CivilDate} : a < b ↔ a.dayNumber < b.dayNumber := Iff.rfl

theorem weekday_eq_sunday_iff {date : CivilDate} :
    date.weekday = .sunday ↔ date.dayNumber % 7 = 0 := by
  have hnonneg := Int.emod_nonneg date.dayNumber (by decide : (7 : Int) ≠ 0)
  unfold weekday
  split <;> simp_all <;> omega

theorem weekday_eq_monday_iff {date : CivilDate} :
    date.weekday = .monday ↔ date.dayNumber % 7 = 1 := by
  have hnonneg := Int.emod_nonneg date.dayNumber (by decide : (7 : Int) ≠ 0)
  unfold weekday
  split <;> simp_all <;> omega

theorem weekday_eq_saturday_iff {date : CivilDate} :
    date.weekday = .saturday ↔ date.dayNumber % 7 = 6 := by
  have hnonneg := Int.emod_nonneg date.dayNumber (by decide : (7 : Int) ≠ 0)
  have hlt := Int.emod_lt_of_pos date.dayNumber (by decide : (0 : Int) < 7)
  unfold weekday
  split <;> simp_all <;> omega

end CivilDate

end Typikon
