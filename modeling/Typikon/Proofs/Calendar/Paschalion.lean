import Typikon.Proofs.Calendar.Year

/-!
Pascha is one day in both reckonings: the days that the Gregorian rule adds are the days by which
the reckonings have drifted apart.
-/

namespace Typikon

theorem exists_of_bind_eq_ok {ε α β : Type} {x : Except ε α} {f : α → Except ε β} {b : β}
    (h : (x >>= f) = .ok b) : ∃ a, x = .ok a ∧ f a = .ok b := by
  cases x with
  | error e => cases h
  | ok a => exact ⟨a, rfl, h⟩

namespace Pascha

/-- Day number of the Pascha of a year, counted from 1 March of the Julian calendar. -/
def dayNumber (year : Int) : Int :=
  Reckoning.julian.beforeMarch (year + 4800) + 21 + daysAfterEquinox .julian year

def ofYear (year : Int) : CivilDate :=
  ⟨dayNumber year⟩

theorem daysAfterEquinox_julian_bounds (year : Int) :
    0 ≤ daysAfterEquinox .julian year ∧ daysAfterEquinox .julian year ≤ 35 := by
  simp only [daysAfterEquinox]
  omega

theorem dayNumber_bounds (year : Int) :
    Reckoning.julian.beforeMarch (year + 4800) + 21 ≤ dayNumber year ∧
      dayNumber year ≤ Reckoning.julian.beforeMarch (year + 4800) + 56 := by
  obtain ⟨hlow, hhigh⟩ := daysAfterEquinox_julian_bounds year
  unfold dayNumber
  omega

theorem daysAfterEquinox_gregorian {year : Int} (hyear : 0 ≤ year) :
    daysAfterEquinox .gregorian year =
      daysAfterEquinox .julian year + (year / 100 - year / 400 - 2) := by
  have hcentury : year.tdiv 100 = year / 100 := Int.tdiv_eq_ediv_of_nonneg hyear
  have hfour : (year / 100).tdiv 4 = year / 400 := by
    rw [Int.tdiv_eq_ediv_of_nonneg (by omega)]
    omega
  simp only [daysAfterEquinox, hcentury, hfour]

theorem daysAfterEquinox_ge (r : Reckoning) {year : Int} (hyear : 0 ≤ year) :
    -2 ≤ daysAfterEquinox r year := by
  obtain ⟨hnonneg, -⟩ := daysAfterEquinox_julian_bounds year
  cases r with
  | julian => omega
  | gregorian =>
    rw [daysAfterEquinox_gregorian hyear]
    omega

/-- Splitting the days into months and counting them again from 1 March changes nothing. -/
theorem offset_monthDay (r : Reckoning) {year : Int} (hyear : 0 ≤ year) :
    offset (monthDay r year) = daysAfterEquinox r year + 20 := by
  have hlow := daysAfterEquinox_ge r hyear
  unfold monthDay
  generalize daysAfterEquinox r year = n at hlow
  by_cases hmay : n > 40
  · simp only [hmay, ↓reduceIte, offset]
    omega
  · by_cases hapril : n > 10
    · simp only [hmay, hapril, ↓reduceIte, offset]
      omega
    · simp only [hmay, hapril, ↓reduceIte, offset]
      omega

theorem dayNumber_eq (r : Reckoning) {year : Int} (hyear : 0 ≤ year) :
    dayNumber year = r.beforeMarch (year + 4800) + 21 + daysAfterEquinox r year := by
  cases r with
  | julian => rfl
  | gregorian =>
    have hdrift := Reckoning.beforeMarch_julian_eq year
    rw [dayNumber, daysAfterEquinox_gregorian hyear, hdrift]
    omega

/-- Where a reckoning gives a Pascha of a year, it is a supported date counted from 1 March. -/
theorem supported_and_dayNumber_of_date {r : Reckoning} {year : Int} {date : CivilDate}
    (hdate : Pascha.date r year = .ok date) :
    date.Supported ∧
      date.dayNumber = r.beforeMarch (year + 4800) + 1 + offset (monthDay r year) := by
  obtain ⟨first, hmarch, hrest⟩ := exists_of_bind_eq_ok hdate
  obtain ⟨-, -, -, hfirst, -⟩ := Reckoning.toCivil_eq_ok_iff.mp hmarch
  have hday : first.dayNumber = r.beforeMarch (year + 4800) + 1 := by
    rw [hfirst, r.dayNumber_eq]
    simp [Reckoning.marchYear, Reckoning.marchDay]
  dsimp only at hrest
  split at hrest
  next hsupported =>
    cases hrest
    exact ⟨hsupported, congrArg (· + offset (monthDay r year)) hday⟩
  · cases hrest

/-- Where a reckoning gives a Pascha of a year, it is the Pascha of that year. -/
theorem eq_ofYear_of_date {r : Reckoning} {year : Int} {date : CivilDate} (hlow : 0 ≤ year)
    (hdate : Pascha.date r year = .ok date) : date = ofYear year := by
  obtain ⟨-, hday⟩ := supported_and_dayNumber_of_date hdate
  apply congrArg CivilDate.mk
  rw [hday, offset_monthDay r hlow, dayNumber_eq r hlow]
  omega

/-- Between the new year of the Gregorian reckoning and that of the Julian one, All Saints of the
old year is past and the Triodion of the new one has not begun. -/
theorem allSaints_lt_and_lt_triodion {year : Int} {date : CivilDate} (hyear : IsLiturgicalYear year)
    (hstart : Reckoning.gregorian.newYear (year + 1) ≤ date.dayNumber)
    (hend : date.dayNumber < Reckoning.julian.newYear (year + 1)) :
    ofYear year + (56 : Int) < date ∧ date < ofYear (year + 1) - (70 : Int) := by
  obtain ⟨hlow, hhigh⟩ := hyear
  have hmarch : year + 1 + 4799 = year + 4800 := by omega
  rw [Reckoning.newYear, hmarch] at hstart hend
  constructor
  · have hpascha := (dayNumber_bounds year).2
    have hdrift := Reckoning.beforeMarch_julian_eq year
    change dayNumber year + 56 < date.dayNumber
    omega
  · have hpascha := (dayNumber_bounds (year + 1)).1
    have hlength : Reckoning.julian.beforeMarch (year + 4800) + 365 ≤
        Reckoning.julian.beforeMarch (year + 1 + 4800) := by
      simp only [Reckoning.beforeMarch]
      omega
    change date.dayNumber < dayNumber (year + 1) - 70
    omega

end Pascha

end Typikon
