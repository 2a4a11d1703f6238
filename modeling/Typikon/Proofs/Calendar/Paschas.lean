import Typikon.Proofs.Calendar.Computus
import Typikon.Proofs.Calendar.Days

/-!
The Paschas of all years. They follow one another by years, more than 300 days apart, so two of
consecutive years that enclose a date are the latest one up to it and the first one after it.
-/

namespace Typikon

namespace Pascha

/-- A date is the Pascha of a year, which may be any year, by the cycle of nineteen years, or by the
rule of a reckoning. The rule counts within 300000 years only: no year beyond has a supported day,
and its count may wrap around. -/
def IsOfYear (year : Int) (date : CivilDate) : Prop :=
  date = ofYear year ∨ (-300000 ≤ year ∧ year ≤ 300000) ∧ ∃ r, Pascha.date r year = .ok date

def all : Set CivilDate :=
  {date | ∃ year, IsOfYear year date}

theorem ofYear_mem_all (year : Int) : ofYear year ∈ all :=
  ⟨year, .inl rfl⟩

/-! ### The order of the Paschas -/

theorem dayNumber_add_lt {y z : Int} (h : y < z) : dayNumber y + 329 < dayNumber z := by
  obtain ⟨-, hhigh⟩ := dayNumber_bounds y
  obtain ⟨hlow, -⟩ := dayNumber_bounds z
  have hyear : Reckoning.julian.beforeMarch (y + 4800) + 365 ≤
      Reckoning.julian.beforeMarch (z + 4800) := by
    simp only [Reckoning.beforeMarch]
    omega
  omega

theorem ofYear_lt_ofYear {y z : Int} (h : y < z) : ofYear y < ofYear z := by
  have hgap := dayNumber_add_lt h
  change dayNumber y < dayNumber z
  omega

theorem ofYear_le_ofYear {y z : Int} (h : y ≤ z) : ofYear y ≤ ofYear z := by
  rw [CivilDate.le_iff]
  change dayNumber y ≤ dayNumber z
  rcases Int.lt_or_eq_of_le h with hlt | rfl
  · have hgap := dayNumber_add_lt hlt
    omega
  · exact Int.le_refl _

theorem daysAfterEquinox_bounds_of_neg (r : Reckoning) {year : Int} (hlow : -300000 ≤ year)
    (hyear : year < 0) : -3000 ≤ daysAfterEquinox r year ∧ daysAfterEquinox r year ≤ 35 := by
  obtain ⟨hjulian, hjulian'⟩ := daysAfterEquinox_julian_bounds year
  cases r with
  | julian => omega
  | gregorian =>
    have hcentury : year.tdiv 100 = -(-year / 100) := by
      rw [← Int.tdiv_eq_ediv_of_nonneg (by omega), Int.neg_tdiv, Int.neg_neg]
    have hfour : (year.tdiv 100).tdiv 4 = -(-year / 100 / 4) := by
      rw [hcentury, Int.neg_tdiv, Int.tdiv_eq_ediv_of_nonneg (by omega)]
    have hdrift : daysAfterEquinox .gregorian year =
        daysAfterEquinox .julian year + (year.tdiv 100 - (year.tdiv 100).tdiv 4 - 2) := rfl
    omega

/-- Up to the end of April the days from 1 March are a word of 32 bits. -/
theorem offset_monthDay_of_le (r : Reckoning) {year : Int} (h : daysAfterEquinox r year ≤ 40) :
    offset (monthDay r year) = (daysAfterEquinox r year + 20) % 4294967296 := by
  unfold monthDay
  generalize daysAfterEquinox r year = n at h
  have hmay : ¬n > 40 := by omega
  by_cases hapril : n > 10
  · simp only [hmay, hapril, ↓reduceIte, offset]
    omega
  · simp only [hmay, hapril, ↓reduceIte, offset]
    omega

/-- No Pascha that the rule of a reckoning gives for a year before 0 comes after that of the year
0. -/
theorem le_ofYear_zero_of_date {r : Reckoning} {year : Int} {date : CivilDate}
    (hlow : -300000 ≤ year) (hyear : year < 0) (hdate : Pascha.date r year = .ok date) :
    date ≤ ofYear 0 := by
  obtain ⟨⟨-, hlast⟩, hday⟩ := supported_and_dayNumber_of_date hdate
  obtain ⟨hrule, hrule'⟩ := daysAfterEquinox_bounds_of_neg r hlow hyear
  rw [offset_monthDay_of_le r (by omega)] at hday
  have hfirst : -120000000 ≤ r.beforeMarch (-300000 + 4800) := by
    cases r <;> decide
  have hafter := r.beforeMarch_mono (show -300000 + 4800 ≤ year + 4800 by omega)
  have hbefore := r.beforeMarch_mono (show year + 4800 ≤ 4799 by omega)
  have hspring : r.beforeMarch 4799 + 56 ≤ dayNumber 0 := by
    cases r <;> decide
  change date.dayNumber ≤ dayNumber 0
  omega

section Order

variable {y z : Int} {date : CivilDate}

theorem IsOfYear.eq_ofYear (h : IsOfYear y date) (hy : 0 ≤ y) : date = ofYear y := by
  obtain rfl | ⟨-, r, hdate⟩ := h
  · rfl
  · exact eq_ofYear_of_date hy hdate

theorem IsOfYear.le_ofYear (h : IsOfYear y date) (hz : 0 ≤ z) (hle : y ≤ z) : date ≤ ofYear z := by
  obtain rfl | ⟨⟨hlow, -⟩, r, hdate⟩ := h
  · exact ofYear_le_ofYear hle
  · rcases Int.lt_or_le y 0 with hneg | hnonneg
    · exact CivilDate.le_iff.2
        (Int.le_trans (le_ofYear_zero_of_date hlow hneg hdate) (ofYear_le_ofYear hz))
    · rw [eq_ofYear_of_date hnonneg hdate]
      exact ofYear_le_ofYear hle

theorem IsOfYear.ofYear_le (h : IsOfYear y date) (hz : 0 ≤ z) (hle : z ≤ y) : ofYear z ≤ date := by
  rw [h.eq_ofYear (Int.le_trans hz hle)]
  exact ofYear_le_ofYear hle

/-- Up to a date before the Pascha of the next year, that of a year is the latest. -/
theorem isGreatest_ofYear (hz : 0 ≤ z) (hle : ofYear z ≤ date) (hlt : date < ofYear (z + 1)) :
    IsGreatest {pascha | pascha ∈ all ∧ pascha ≤ date} (ofYear z) := by
  refine ⟨⟨ofYear_mem_all z, hle⟩, ?_⟩
  rintro pascha ⟨⟨year, hpascha⟩, hbefore⟩
  rcases Int.lt_or_le z year with hlater | hyear
  · have hnext := hpascha.ofYear_le (by omega) (Int.add_one_le_of_lt hlater)
    rw [CivilDate.lt_iff] at hlt
    rw [CivilDate.le_iff] at hnext hbefore
    omega
  · exact hpascha.le_ofYear hz hyear

/-- After a date from the Pascha of a year on, that of the next year is the first. -/
theorem isLeast_ofYear (hz : 0 ≤ z) (hle : ofYear z ≤ date) (hlt : date < ofYear (z + 1)) :
    IsLeast {pascha | pascha ∈ all ∧ date < pascha} (ofYear (z + 1)) := by
  refine ⟨⟨ofYear_mem_all (z + 1), hlt⟩, ?_⟩
  rintro pascha ⟨⟨year, hpascha⟩, hafter⟩
  rcases Int.lt_or_le z year with hlater | hyear
  · exact hpascha.ofYear_le (by omega) (Int.add_one_le_of_lt hlater)
  · have hlast := hpascha.le_ofYear hz hyear
    rw [CivilDate.lt_iff] at hafter
    rw [CivilDate.le_iff] at hle hlast
    omega

/-- The days so many days after the Paschas: if the next one is to come, that of a year is the
latest. -/
theorem isGreatest_ofYear_add {days : Int} (hz : 0 ≤ z) (hle : ofYear z + days ≤ date)
    (hlt : date < ofYear (z + 1) + days) :
    IsGreatest {day | (∃ pascha ∈ all, day = pascha + days) ∧ day ≤ date} (ofYear z + days) := by
  obtain ⟨-, hlatest⟩ := isGreatest_ofYear hz (CivilDate.le_sub_iff.2 hle)
    (CivilDate.sub_lt_iff.2 hlt)
  refine ⟨⟨⟨_, ofYear_mem_all z, rfl⟩, hle⟩, ?_⟩
  rintro day ⟨⟨pascha, hpascha, rfl⟩, hbefore⟩
  have hle' := hlatest ⟨hpascha, CivilDate.le_sub_iff.2 hbefore⟩
  exact Int.add_le_add_right hle' days

theorem isGreatest_ofYear_sub {days : Int} (hz : 0 ≤ z) (hle : ofYear z - days ≤ date)
    (hlt : date < ofYear (z + 1) - days) :
    IsGreatest {start | (∃ pascha ∈ all, start = pascha - days) ∧ start ≤ date}
      (ofYear z - days) :=
  isGreatest_ofYear_add hz hle hlt

end Order

end Pascha

end Typikon
