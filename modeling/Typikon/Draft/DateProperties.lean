import Typikon.Calendar.LiturgicalDay

/-!
The properties of a template that settle its liturgical day.
-/

namespace Typikon

structure DateProperties where
  calendar : Reckoning
  month : Option Nat
  day : Option Nat
  year : Option Int
deriving DecidableEq

namespace DateProperties

/-- The liturgical day of a template. Without a month or a day it is that of the reference date;
without a year, the next one from the reference date on. -/
def liturgicalDay (p : DateProperties) (reference : CivilDate) :
    Except CalendarError LiturgicalDay :=
  match p.month, p.day, p.year with
  | some month, some day, some year => LiturgicalDay.ofLabel p.calendar ⟨year, month, day⟩
  | some month, some day, none =>
    LiturgicalDay.ofMonthDay p.calendar month day reference
  | _, _, _ => LiturgicalDay.ofDate p.calendar reference

/-- The year that a document shows: the year of its liturgical day once month and day are set,
before that the given one. -/
def shownYear (p : DateProperties) (day : LiturgicalDay) : Option Int :=
  if p.month.isSome ∧ p.day.isSome then some day.year else p.year

end DateProperties

end Typikon
