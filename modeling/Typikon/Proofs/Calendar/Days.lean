import Mathlib.Data.Set.Operations
import Mathlib.Order.Bounds.Defs
import Typikon.Calendar.CivilDate

/-!
Days counted on and back from a date, and the latest date of a set up to a given one. A day that
comes in every year divides the dates: each lies from that of one year to that of the next.
-/

namespace Typikon.CivilDate

theorem le_sub_iff {a b : CivilDate} {days : Int} : a ≤ b - days ↔ a + days ≤ b := by
  rw [le_iff, le_iff, dayNumber_sub, dayNumber_add]
  omega

theorem sub_lt_iff {a b : CivilDate} {days : Int} : a - days < b ↔ a < b + days := by
  rw [lt_iff, lt_iff, dayNumber_sub, dayNumber_add]
  omega

theorem lt_sub_iff {a b : CivilDate} {days : Int} : a < b - days ↔ a + days < b := by
  rw [lt_iff, lt_iff, dayNumber_sub, dayNumber_add]
  omega

theorem eq_of_dayNumber_eq {a b : CivilDate} (h : a.dayNumber = b.dayNumber) : a = b :=
  congrArg mk h

theorem le_antisymm {a b : CivilDate} (hab : a ≤ b) (hba : b ≤ a) : a = b := by
  rw [le_iff] at hab hba
  exact eq_of_dayNumber_eq (Int.le_antisymm hab hba)

theorem le_add_one (date : CivilDate) : date ≤ date + (1 : Int) :=
  Int.le_add_one (Int.le_refl _)

theorem lt_of_mem_of_not_mem {dates : Set CivilDate} {a b : CivilDate} (hle : a ≤ b)
    (ha : a ∈ dates) (hb : b ∉ dates) : a < b := by
  refine Int.lt_iff_le_and_ne.2 ⟨hle, fun h => ?_⟩
  obtain rfl : a = b := eq_of_dayNumber_eq h
  exact hb ha

theorem add_le_of_le_sub {a b : CivilDate} {days : Int} (h : days ≤ (a - b : Int)) :
    b + days ≤ a := by
  rw [sub_eq] at h
  rw [le_iff, dayNumber_add]
  omega

theorem sub_add_eq (a b : CivilDate) (days : Int) : a - (b + days) = a - b - days := by
  rw [sub_eq, sub_eq, dayNumber_add]
  omega

theorem sub_sub_eq (a b : CivilDate) (days : Int) : a - (b - days) = a - b + days := by
  rw [sub_eq, sub_eq, dayNumber_sub]
  omega

theorem weekday_add_seven_eq_sunday {date : CivilDate} (h : date.weekday = .sunday) :
    (date + (7 : Int)).weekday = .sunday := by
  rw [weekday_eq_sunday_iff] at h ⊢
  rw [dayNumber_add]
  omega

/-- The latest dates of a set up to two dates are one if each of them is up to both. -/
theorem eq_of_isGreatest_of_le {dates : Set CivilDate} {date date' latest latest' : CivilDate}
    (h : IsGreatest {other | other ∈ dates ∧ other ≤ date} latest)
    (h' : IsGreatest {other | other ∈ dates ∧ other ≤ date'} latest') (hle : latest ≤ date')
    (hle' : latest' ≤ date) : latest = latest' :=
  le_antisymm (h'.2 ⟨h.1.1, hle⟩) (h.2 ⟨h'.1.1, hle'⟩)

section Yearly

variable {day : Int → CivilDate} {date : CivilDate} {y z : Int}

theorem year_eq_of_between (hmono : ∀ {y z}, y ≤ z → day y ≤ day z) (hy : day y ≤ date)
    (hy' : date < day (y + 1)) (hz : day z ≤ date) (hz' : date < day (z + 1)) : y = z := by
  rw [le_iff] at hy hz
  rw [lt_iff] at hy' hz'
  rcases Int.lt_trichotomy y z with hlt | heq | hgt
  · have hyears := hmono (Int.add_one_le_of_lt hlt)
    rw [le_iff] at hyears
    omega
  · exact heq
  · have hyears := hmono (Int.add_one_le_of_lt hgt)
    rw [le_iff] at hyears
    omega

theorem isGreatest_of_between (hmono : ∀ {y z}, y ≤ z → day y ≤ day z) (hle : day y ≤ date)
    (hlt : date < day (y + 1)) :
    IsGreatest {other | other ∈ Set.range day ∧ other ≤ date} (day y) := by
  refine ⟨⟨⟨y, rfl⟩, hle⟩, ?_⟩
  rintro other ⟨⟨z, rfl⟩, hbefore⟩
  rcases Int.lt_or_le y z with hlater | hyear
  · have hnext := hmono (Int.add_one_le_of_lt hlater)
    rw [lt_iff] at hlt
    rw [le_iff] at hnext hbefore
    omega
  · exact hmono hyear

/-- Picking last year's day while this year's is to come gives the latest one. What goes with the
day, such as the feast it is counted from, is picked along with it. -/
theorem exists_year_of_pick (hbefore : day (y - 1) ≤ date) (hafter : date < day (y + 1)) :
    ∃ z, y - 1 ≤ z ∧ day z ≤ date ∧ date < day (z + 1) ∧
      ∀ along : Int → CivilDate, (if date < day y then along (y - 1) else along y) = along z := by
  by_cases hcome : date < day y
  · have hyears : y - 1 + 1 = y := by omega
    exact ⟨y - 1, Int.le_refl _, hbefore, hyears.symm ▸ hcome, fun _ => if_pos hcome⟩
  · exact ⟨y, by omega, Int.not_lt.1 hcome, hafter, fun _ => if_neg hcome⟩

end Yearly

end Typikon.CivilDate
