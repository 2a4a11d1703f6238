import Typikon.Proofs.Calendar.Year

/-!
Labels and dates answer each other. In either reckoning every date has one label, its month exists
and has its day, and every such label is that of one date. So a label can be converted just if some
supported date has it, and back and forth is the identity, before the year 0 as after it.
-/

namespace Typikon

/-- A label that names a day: there is such a month, and the month has such a day. -/
structure Label.NamesDay (label : Label) (r : Reckoning) : Prop where
  one_le_month : 1 ≤ label.month
  month_le : label.month ≤ 12
  one_le_day : 1 ≤ label.day
  day_le : label.day ≤ r.daysInMonth label.year label.month

namespace Reckoning

/-! ### Days of a year that begins on 1 March -/

theorem daysInMonth_le (r : Reckoning) (year : Int) (month : Nat) :
    r.daysInMonth year month ≤ 31 := by
  unfold daysInMonth
  split
  case h_5 => split <;> omega
  all_goals omega

/-- A month ends where the next one begins. Only February, which comes last, may end before it. -/
theorem marchDay_daysInMonth (r : Reckoning) (year : Int) {month : Nat} (hlow : 1 ≤ month)
    (hhigh : month ≤ 12) (hmonth : month ≠ 2) :
    marchDay month (r.daysInMonth year month) = marchDay (month + 1) 0 := by
  have hcases : month = 1 ∨ month = 3 ∨ month = 4 ∨ month = 5 ∨ month = 6 ∨ month = 7 ∨
      month = 8 ∨ month = 9 ∨ month = 10 ∨ month = 11 ∨ month = 12 := by
    omega
  rcases hcases with rfl | rfl | rfl | rfl | rfl | rfl | rfl | rfl | rfl | rfl | rfl <;> rfl

theorem daysInMonth_two (r : Reckoning) (year : Int) :
    (r.daysInMonth year 2 : Int) = 28 + if r.IsLeapYear year then 1 else 0 := by
  change ((if r.IsLeapYear year then 29 else 28 : Nat) : Int) = _
  split <;> rfl

/-- The year that began on 1 March ends with the February of the next year. -/
theorem beforeMarch_succ (r : Reckoning) (y : Int) :
    r.beforeMarch (y + 1) =
      r.beforeMarch y + 365 + if r.IsLeapYear (y - 4800 + 1) then 1 else 0 := by
  by_cases hleap : r.IsLeapYear (y - 4800 + 1)
  · rw [if_pos hleap]
    cases r with
    | gregorian | julian =>
      simp only [IsLeapYear] at hleap
      simp only [beforeMarch]
      omega
  · rw [if_neg hleap]
    cases r with
    | gregorian | julian =>
      simp only [IsLeapYear] at hleap
      simp only [beforeMarch]
      omega

theorem beforeMarch_mono (r : Reckoning) {y z : Int} (h : y ≤ z) :
    r.beforeMarch y ≤ r.beforeMarch z := by
  cases r with
  | gregorian =>
    simp only [beforeMarch]
    omega
  | julian =>
    simp only [beforeMarch]
    omega

/-- A day lies in one year beginning on 1 March only. -/
theorem eq_of_beforeMarch_lt {r : Reckoning} {y z n : Int} (hy : r.beforeMarch y < n)
    (hy' : n ≤ r.beforeMarch (y + 1)) (hz : r.beforeMarch z < n)
    (hz' : n ≤ r.beforeMarch (z + 1)) : y = z := by
  rcases Int.lt_trichotomy y z with hlt | heq | hgt
  · have := r.beforeMarch_mono (show y + 1 ≤ z by omega)
    omega
  · exact heq
  · have := r.beforeMarch_mono (show z + 1 ≤ y by omega)
    omega

/-! ### Labels of the days of such a year -/

/-- The place of a month in a year beginning on 1 March, the first month being 0. -/
def marchMonth (month : Nat) : Int :=
  ((month : Int) + 9) % 12

theorem marchMonth_cases {month : Nat} (hlow : 1 ≤ month) (hhigh : month ≤ 12) :
    2 < month ∧ marchMonth month = month - 3 ∨ month ≤ 2 ∧ marchMonth month = month + 9 := by
  unfold marchMonth
  omega

/-- A label is that of the day in its place, if its month does not end before that. -/
theorem ofMarchDay_eq (year : Int) {month day : Nat} (hlow : 1 ≤ month) (hhigh : month ≤ 12)
    (hday : 1 ≤ day) (hend : 5 * marchDay month day ≤ 153 * (marchMonth month + 1) + 2) :
    ofMarchDay (marchYear year month) (marchDay month day - 1) = ⟨year, month, day⟩ := by
  have hplace : marchDay month day = (153 * marchMonth month + 2) / 5 + day := rfl
  have hmonth : (5 * (marchDay month day - 1) + 2) / 153 = marchMonth month := by omega
  simp only [ofMarchDay, marchYear, hmonth, Label.mk.injEq]
  rcases marchMonth_cases hlow hhigh with ⟨hlate, hm⟩ | ⟨hearly, hm⟩
  · have htens : marchMonth month / 10 = 0 := by omega
    rw [htens, if_neg (by omega)]
    omega
  · have htens : marchMonth month / 10 = 1 := by omega
    rw [htens, if_pos hearly]
    omega

/-- Every place in a year is that of the label it is cut down to. -/
theorem exists_ofMarchDay_eq {offset : Int} (y : Int) (hlow : 0 ≤ offset) (hhigh : offset ≤ 365) :
    ∃ year month day, ofMarchDay y offset = ⟨year, month, day⟩ ∧
      1 ≤ month ∧ month ≤ 12 ∧ 1 ≤ day ∧
      marchYear year month = y ∧ marchDay month day = offset + 1 ∧
      5 * marchDay month day ≤ 153 * (marchMonth month + 1) + 2 := by
  refine ⟨_, _, _, rfl, ?_⟩
  obtain ⟨m, hm⟩ : ∃ m, m = (5 * offset + 2) / 153 := ⟨_, rfl⟩
  have hmonth : 0 ≤ m ∧ m ≤ 11 := by omega
  by_cases hearly : m < 10
  · have htens : m / 10 = 0 := by omega
    have hplace : marchMonth (m + 3 - 12 * (m / 10)).toNat = m := by
      unfold marchMonth
      omega
    rw [← hm, marchDay, ← marchMonth, hplace, marchYear, htens, if_neg (by omega)]
    omega
  · have htens : m / 10 = 1 := by omega
    have hplace : marchMonth (m + 3 - 12 * (m / 10)).toNat = m := by
      unfold marchMonth
      omega
    rw [← hm, marchDay, ← marchMonth, hplace, marchYear, htens, if_pos (by omega)]
    omega

/-- A month has a day if neither the month nor the year ends before it. -/
theorem le_daysInMonth_iff (r : Reckoning) (year : Int) {month day : Nat} (hlow : 1 ≤ month)
    (hhigh : month ≤ 12) :
    day ≤ r.daysInMonth year month ↔
      5 * marchDay month day ≤ 153 * (marchMonth month + 1) + 2 ∧
        r.beforeMarch (marchYear year month) + marchDay month day ≤
          r.beforeMarch (marchYear year month + 1) := by
  have hlength := r.beforeMarch_succ (marchYear year month)
  by_cases hmonth : month = 2
  · subst hmonth
    have hyear : marchYear year 2 - 4800 + 1 = year := by
      change year + 4800 - 1 - 4800 + 1 = year
      omega
    have hfebruary := r.daysInMonth_two year
    have hplace : marchDay 2 day = 337 + day := rfl
    have hlast : marchMonth 2 = 11 := rfl
    rw [hyear] at hlength
    rw [hplace, hlast]
    by_cases hleap : r.IsLeapYear year
    · rw [if_pos hleap] at hlength hfebruary
      omega
    · rw [if_neg hleap] at hlength hfebruary
      omega
  · have hend := marchDay_daysInMonth r year hlow hhigh hmonth
    have hplace (d : Nat) : marchDay month d = (153 * marchMonth month + 2) / 5 + d := rfl
    have hnext : marchDay (month + 1) 0 = (153 * (marchMonth month + 1) + 2) / 5 := by
      simp only [marchDay, marchMonth]
      omega
    have hearly : marchMonth month ≤ 10 := by
      unfold marchMonth
      omega
    rw [hplace, hnext] at hend
    rw [hplace]
    omega

/-! ### Labels and dates -/

/-- A date has a label if the label names a day, and the date is in its place. -/
theorem label_eq_iff {r : Reckoning} {date : CivilDate} {label : Label} :
    r.label date = label ↔
      label.NamesDay r ∧ date.dayNumber = r.dayNumber label := by
  obtain ⟨y, offset, hdate, hlow, hhigh, hday, hnext⟩ := r.exists_label_eq_ofMarchDay date
  obtain ⟨year, month, day, hcut, hmonth, hmonth', hone, hyear, hplace, hend⟩ :=
    exists_ofMarchDay_eq y hlow hhigh
  have hnames : (⟨year, month, day⟩ : Label).NamesDay r := by
    refine ⟨hmonth, hmonth', hone, (r.le_daysInMonth_iff year hmonth hmonth').mpr ⟨hend, ?_⟩⟩
    rw [hyear, hplace]
    omega
  have hdayNumber : date.dayNumber = r.beforeMarch (marchYear year month) + marchDay month day := by
    rw [hyear, hplace]
    omega
  rw [hdate, hcut, dayNumber_eq]
  constructor
  · rintro rfl
    exact ⟨hnames, hdayNumber⟩
  · obtain ⟨year', month', day'⟩ := label
    rintro ⟨⟨hlow', hhigh', hone', hday'⟩, hdayNumber'⟩
    dsimp only at *
    obtain ⟨hend', hnext'⟩ := (r.le_daysInMonth_iff year' hlow' hhigh').mp hday'
    have hpositive := (marchDay_bounds month' day').1
    have hsame : y = marchYear year' month' :=
      eq_of_beforeMarch_lt (by omega) hnext (by omega) (hdayNumber' ▸ hnext')
    have hoffset : offset = marchDay month' day' - 1 := by
      rw [← hsame] at hdayNumber'
      omega
    rw [← hcut, hsame, hoffset]
    exact ofMarchDay_eq year' hlow' hhigh' hone' hend'

/-- A label converts to a date just if the date is supported and has the label. -/
theorem toCivil_eq_ok_iff_label_eq {r : Reckoning} {label : Label} {date : CivilDate} :
    r.toCivil label = .ok date ↔ date.Supported ∧ r.label date = label := by
  rw [toCivil_eq_ok_iff, label_eq_iff]
  constructor
  · rintro ⟨⟨hmonth, hmonth'⟩, ⟨hday, -⟩, hlength, rfl, hsupported⟩
    exact ⟨hsupported, ⟨hmonth, hmonth', hday, hlength⟩, rfl⟩
  · rintro ⟨hsupported, ⟨hmonth, hmonth', hday, hlength⟩, hdate⟩
    have hday' : label.day ≤ 31 := Nat.le_trans hlength (r.daysInMonth_le _ _)
    exact ⟨⟨hmonth, hmonth'⟩, ⟨hday, hday'⟩, hlength, congrArg CivilDate.mk hdate, hsupported⟩

/-- The year of a supported date is less than 300000 years away. -/
theorem year_bounds_of_supported (r : Reckoning) {date : CivilDate} (h : date.Supported) :
    -300000 ≤ (r.label date).year ∧ (r.label date).year ≤ 300000 := by
  obtain ⟨hstart, hend⟩ := r.newYear_le_and_lt date
  obtain ⟨hfirst, hlast⟩ := h
  generalize (r.label date).year = year at *
  cases r with
  | gregorian | julian =>
    simp only [newYear, beforeMarch, gregorianEpoch, julianEpoch] at hstart hend
    omega

theorem toCivil_label {r : Reckoning} {date : CivilDate} (h : date.Supported) :
    r.toCivil (r.label date) = .ok date :=
  toCivil_eq_ok_iff_label_eq.mpr ⟨h, rfl⟩

/-- What is wrong with a label that no supported date has: the month, or else the day, or else that
they do not go together. -/
def labelError (r : Reckoning) (label : Label) : CalendarError :=
  if ¬(1 ≤ label.month ∧ label.month ≤ 12) then .monthOutOfRange label.month
  else if ¬(1 ≤ label.day ∧ label.day ≤ 31) then .dayOutOfRange label.day
  else .noSuchDate label r

theorem canCount_of_year_bounds (r : Reckoning) {label : Label} (hlow : -300000 ≤ label.year)
    (hhigh : label.year ≤ 300000) (hday : label.day ≤ 31) : r.CanCount label := by
  cases r with
  | gregorian => trivial
  | julian =>
    obtain ⟨hyear, hyear'⟩ := marchYear_bounds label.year label.month
    obtain ⟨hmarch, hmarch'⟩ := marchDay_bounds label.month label.day
    apply canCount_julian_of_dayNumber hday
    · simp only [dayNumber_eq, beforeMarch, julianEpoch]
      omega
    · simp only [dayNumber_eq, beforeMarch, julianEpoch]
      omega

/-- Where the days to a label can be counted, the label fails only of what is wrong with it. -/
theorem eq_labelError_of_toCivil {r : Reckoning} {label : Label} {e : CalendarError}
    (hcount : label.day ≤ 31 → r.CanCount label) (h : r.toCivil label = .error e) :
    e = r.labelError label := by
  unfold toCivil at h
  unfold labelError
  split at h
  · next hmonth =>
    cases h
    rw [if_pos hmonth]
  · next hmonth =>
    rw [if_neg hmonth]
    split at h
    · next hday =>
      cases h
      rw [if_pos hday]
    · next hday =>
      rw [if_neg hday]
      rw [if_neg (not_not_intro (hcount (by omega)))] at h
      split at h
      · cases h
        rfl
      · dsimp only at h
        split at h
        · cases h
        · cases h
          rfl

theorem exists_label_eq_iff {r : Reckoning} {label : Label} :
    (∃ date, r.label date = label) ↔ label.NamesDay r := by
  constructor
  · rintro ⟨date, hdate⟩
    exact (label_eq_iff.mp hdate).1
  · intro h
    exact ⟨⟨_⟩, label_eq_iff.mpr ⟨h, rfl⟩⟩

/-- Only a leap year has a 29 February. -/
theorem namesDay_leapDay_iff {r : Reckoning} {year : Int} :
    (⟨year, 2, 29⟩ : Label).NamesDay r ↔ r.IsLeapYear year := by
  have hfebruary := r.daysInMonth_two year
  constructor
  · rintro ⟨-, -, -, hday⟩
    dsimp only at hday
    by_cases hleap : r.IsLeapYear year
    · exact hleap
    · rw [if_neg hleap] at hfebruary
      omega
  · intro hleap
    rw [if_pos hleap] at hfebruary
    refine ⟨by simp, by simp, by simp, ?_⟩
    dsimp only
    omega

/-- A label converts to the supported date that has it, and if there is none, the error tells why.
The label of a supported date converts back to it, and the labels that no date has are those whose
month does not exist or lacks the day, 29 February outside leap years among them. -/
theorem toCivil_inverse_label (r : Reckoning) {label : Label} (hlow : -300000 ≤ label.year)
    (hhigh : label.year ≤ 300000) :
    (∀ date, r.toCivil label = .ok date ↔ date.Supported ∧ r.label date = label) ∧
      ((¬∃ date : CivilDate, date.Supported ∧ r.label date = label) →
        r.toCivil label = .error (r.labelError label)) ∧
      (∀ date : CivilDate, date.Supported → r.toCivil (r.label date) = .ok date) ∧
      ((∃ date, r.label date = label) ↔ label.NamesDay r) ∧
      ((∃ date, r.label date = ⟨label.year, 2, 29⟩) ↔ r.IsLeapYear label.year) := by
  refine ⟨fun date => toCivil_eq_ok_iff_label_eq, ?_, fun date => toCivil_label,
    exists_label_eq_iff, exists_label_eq_iff.trans namesDay_leapDay_iff⟩
  intro hnone
  cases h : r.toCivil label with
  | ok date => exact absurd ⟨date, toCivil_eq_ok_iff_label_eq.mp h⟩ hnone
  | error e => rw [eq_labelError_of_toCivil (r.canCount_of_year_bounds hlow hhigh) h]

/-- The year -4 is a leap year of the Julian reckoning, and 29 February in it is day -1769. -/
theorem toCivil_inverse_label_leapDay :
    Reckoning.julian.toCivil ⟨-4, 2, 29⟩ = .ok ⟨-1769⟩ := by
  have hlabel : Reckoning.julian.label ⟨-1769⟩ = ⟨-4, 2, 29⟩ := rfl
  have hsupported : (⟨-1769⟩ : CivilDate).Supported := by decide
  exact ((toCivil_inverse_label .julian (by decide) (by decide)).1 ⟨-1769⟩).mpr
    ⟨hsupported, hlabel⟩

end Reckoning

end Typikon
