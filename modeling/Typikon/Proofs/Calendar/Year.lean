import Typikon.Calendar.LiturgicalDay

/-!
The years of the two reckonings on the line of days: where the years that begin on 1 March and those
that begin on 1 January start, and in which of them a date lies.
-/

namespace Typikon.Reckoning

/-- Day number of the day before 1 March of a year, where the years are counted from -4800. -/
def beforeMarch : Reckoning → Int → Int
  | .gregorian, y => gregorianEpoch + 365 * y + y / 4 - y / 100 + y / 400
  | .julian, y => julianEpoch + 365 * y + y / 4

/-- Day number of 1 January of a year. It is day 306 of the year that began on the last 1 March,
whose first day is 0. -/
def newYear (r : Reckoning) (year : Int) : Int :=
  r.beforeMarch (year + 4799) + 307

theorem marchDay_bounds (month day : Nat) :
    (day : Int) ≤ marchDay month day ∧ marchDay month day ≤ 337 + day := by
  unfold marchDay
  omega

theorem marchYear_bounds (year : Int) (month : Nat) :
    year + 4799 ≤ marchYear year month ∧ marchYear year month ≤ year + 4800 := by
  unfold marchYear
  split <;> omega

theorem dayNumber_eq (r : Reckoning) (label : Label) :
    r.dayNumber label =
      r.beforeMarch (marchYear label.year label.month) + marchDay label.month label.day := by
  cases r <;> rfl

/-- In counting the days to a Julian label no number comes up that is far from the last one. -/
theorem canCount_julian_of_dayNumber {label : Label} (hday : label.day ≤ 31)
    (hlow : -2147483648 ≤ Reckoning.julian.dayNumber label)
    (hhigh : Reckoning.julian.dayNumber label ≤ 2145730139) : Reckoning.julian.CanCount label := by
  obtain ⟨hyear, hyear'⟩ := marchYear_bounds label.year label.month
  obtain ⟨hmarch, hmarch'⟩ := marchDay_bounds label.month label.day
  rw [dayNumber_eq] at hlow hhigh
  simp only [CanCount, julianCounts, List.forall_mem_cons, dayNumber_eq]
  simp only [beforeMarch, julianEpoch] at *
  refine ⟨?_, ?_, ?_, ?_, ?_, ?_, ?_, by simp⟩ <;> omega

theorem canCount_of_supported {r : Reckoning} {label : Label} (hday : label.day ≤ 31)
    (h : (⟨r.dayNumber label⟩ : CivilDate).Supported) : r.CanCount label := by
  cases r with
  | gregorian => trivial
  | julian =>
    obtain ⟨hfirst, hlast⟩ := h
    dsimp only at hfirst hlast
    exact canCount_julian_of_dayNumber hday (by omega) (by omega)

theorem ite_error_eq_ok_iff {ε α : Type} {c : Prop} [Decidable c] {e : ε} {x : Except ε α}
    {a : α} : (if c then .error e else x) = .ok a ↔ ¬c ∧ x = .ok a := by
  by_cases hc : c <;> simp [hc]

/-- A supported date is never so far away that the days to it could not be counted. -/
theorem toCivil_eq_ok_iff {r : Reckoning} {label : Label} {date : CivilDate} :
    r.toCivil label = .ok date ↔
      (1 ≤ label.month ∧ label.month ≤ 12) ∧ (1 ≤ label.day ∧ label.day ≤ 31) ∧
        label.day ≤ r.daysInMonth label.year label.month ∧
        date = ⟨r.dayNumber label⟩ ∧ date.Supported := by
  simp only [toCivil, ite_error_eq_ok_iff, Decidable.not_not, Nat.not_lt]
  constructor
  · rintro ⟨hmonth, hday, hlength, -, hdate⟩
    split at hdate
    · next hsupported =>
      cases hdate
      exact ⟨hmonth, hday, hlength, rfl, hsupported⟩
    · cases hdate
  · rintro ⟨hmonth, hday, hlength, rfl, hsupported⟩
    exact ⟨hmonth, hday, hlength, canCount_of_supported hday.2 hsupported, if_pos hsupported⟩

/-- A date is a day of exactly one year beginning on 1 March, and its label says which. -/
theorem exists_label_eq_ofMarchDay (r : Reckoning) (date : CivilDate) :
    ∃ y offset, r.label date = ofMarchDay y offset ∧ 0 ≤ offset ∧ offset ≤ 365 ∧
      date.dayNumber = r.beforeMarch y + offset + 1 ∧
      date.dayNumber ≤ r.beforeMarch (y + 1) := by
  cases r with
  | julian =>
    refine ⟨_, _, rfl, ?_⟩
    simp only [beforeMarch]
    omega
  | gregorian =>
    have hlabel : ∃ n c d y, n = date.dayNumber - gregorianEpoch - 1 ∧
        c = (4 * n + 3) / 146097 ∧ d = n - 146097 * c / 4 ∧ y = (4 * d + 3) / 1461 ∧
        Reckoning.gregorian.label date = ofMarchDay (100 * c + y) (d - 1461 * y / 4) :=
      ⟨_, _, _, _, rfl, rfl, rfl, rfl, rfl⟩
    obtain ⟨n, c, d, y, hn, hc, hd, hy, hlabel⟩ := hlabel
    have hdBounds : 0 ≤ d ∧ d ≤ 36524 := by omega
    have hyBounds : 0 ≤ y ∧ y ≤ 99 := by omega
    have hdays : 146097 * c / 4 = 36524 * c + c / 4 := by omega
    have hdNext : d + 1 ≤ 365 * (y + 1) + (y + 1) / 4 := by omega
    -- Inside a century the quotients of the year split into those of the century and of the rest.
    have hquarter : (100 * c + y) / 4 = 25 * c + y / 4 := by omega
    have hcentury : (100 * c + y) / 100 = c := by omega
    have hfour : (100 * c + y) / 400 = c / 4 := by omega
    refine ⟨_, _, hlabel, by omega, by omega, ?_, ?_⟩
    · simp only [beforeMarch, hquarter, hcentury, hfour]
      omega
    · have hquarter' : (100 * c + y + 1) / 4 = 25 * c + (y + 1) / 4 := by omega
      by_cases hlast : y = 99
      · have hcentury' : (100 * c + y + 1) / 100 = c + 1 := by omega
        have hfour' : (100 * c + y + 1) / 400 = (c + 1) / 4 := by omega
        simp only [beforeMarch, hquarter', hcentury', hfour']
        omega
      · have hcentury' : (100 * c + y + 1) / 100 = c := by omega
        have hfour' : (100 * c + y + 1) / 400 = c / 4 := by omega
        simp only [beforeMarch, hquarter', hcentury', hfour']
        omega

theorem year_ofMarchDay {offset : Int} (y : Int) (hlow : 0 ≤ offset) (hhigh : offset ≤ 365) :
    (ofMarchDay y offset).year = y - 4800 + if offset < 306 then 0 else 1 := by
  simp only [ofMarchDay]
  split <;> omega

theorem newYear_le_and_lt (r : Reckoning) (date : CivilDate) :
    r.newYear (r.label date).year ≤ date.dayNumber ∧
      date.dayNumber < r.newYear ((r.label date).year + 1) := by
  obtain ⟨y, offset, hlabel, hlow, hhigh, hday, hnext⟩ := r.exists_label_eq_ofMarchDay date
  rw [hlabel, year_ofMarchDay y hlow hhigh]
  cases r with
  | gregorian =>
    simp only [newYear, beforeMarch] at hday hnext ⊢
    split <;> omega
  | julian =>
    simp only [newYear, beforeMarch] at hday hnext ⊢
    split <;> omega

/-- The days by which the two reckonings have drifted apart on 1 March. -/
theorem beforeMarch_julian_eq (year : Int) :
    Reckoning.julian.beforeMarch (year + 4800) =
      Reckoning.gregorian.beforeMarch (year + 4800) + (year / 100 - year / 400 - 2) := by
  simp only [beforeMarch, julianEpoch, gregorianEpoch]
  omega

/-- A date is in the same year of both reckonings, or the Julian one is still in the year before. -/
theorem year_gregorian_eq_or {date : CivilDate}
    (hlow : 1583 ≤ (Reckoning.julian.label date).year)
    (hhigh : (Reckoning.julian.label date).year ≤ 9999) :
    (Reckoning.gregorian.label date).year = (Reckoning.julian.label date).year ∨
      (Reckoning.gregorian.label date).year = (Reckoning.julian.label date).year + 1 := by
  obtain ⟨hg, hg'⟩ := Reckoning.gregorian.newYear_le_and_lt date
  obtain ⟨hj, hj'⟩ := Reckoning.julian.newYear_le_and_lt date
  generalize (Reckoning.gregorian.label date).year = g at *
  generalize (Reckoning.julian.label date).year = j at *
  simp only [newYear, beforeMarch, gregorianEpoch, julianEpoch] at hg hg' hj hj'
  omega

end Typikon.Reckoning
