import Typikon.Proofs.Calendar.Labels
import Typikon.Proofs.Calendar.Paschalion

/-!
The Julian computus. Pascha is the first Sunday after the Paschal full moon, which the cycle of
nineteen years puts on or after 21 March of the Julian calendar. Gauss's congruence finds the same
day without a weekday or a day number, in the Gregorian calendar as well.
-/

namespace Typikon

structure CivilDate.IsFirstSundayAfter (sunday date : CivilDate) : Prop where
  weekday : sunday.weekday = .sunday
  after : date < sunday
  first : ∀ other : CivilDate, other.weekday = .sunday → date < other → sunday ≤ other

theorem Elevation.isFirstSundayAfter_sundayAfter (date : CivilDate) :
    (sundayAfter date).IsFirstSundayAfter date := by
  have hday : (sundayAfter date).dayNumber = date.dayNumber + (7 - date.dayNumber % 7) := rfl
  refine ⟨?_, ?_, ?_⟩
  · rw [CivilDate.weekday_eq_sunday_iff]
    omega
  · rw [CivilDate.lt_iff]
    omega
  · intro other hsunday hafter
    rw [CivilDate.weekday_eq_sunday_iff] at hsunday
    rw [CivilDate.lt_iff] at hafter
    rw [CivilDate.le_iff]
    omega

namespace Pascha

/-- Days from 21 March of the Julian calendar to the Paschal full moon. -/
def daysToFullMoon (year : Int) : Int :=
  (19 * (year % 19) + 15) % 30

/-- The Paschal full moon of a year. -/
def fullMoon (year : Int) : CivilDate :=
  ⟨Reckoning.julian.beforeMarch (year + 4800) + 21 + daysToFullMoon year⟩

/-- No year of the cycle has its full moon on the last of the thirty days. -/
theorem daysToFullMoon_succ (year : Int) :
    (19 * (year % 19) + 16) % 30 = daysToFullMoon year + 1 := by
  have hcycle : ∀ n : Fin 19, (19 * (n : Int) + 16) % 30 = (19 * (n : Int) + 15) % 30 + 1 := by
    decide
  have hplace := hcycle ⟨(year % 19).toNat, by omega⟩
  have hnat : ((year % 19).toNat : Int) = year % 19 := by omega
  rw [Fin.val_mk, hnat] at hplace
  exact hplace

/-- Gauss's congruence counts on from the full moon to the next Sunday. -/
theorem ofYear_eq_sundayAfter_fullMoon (year : Int) :
    ofYear year = Elevation.sundayAfter (fullMoon year) := by
  apply congrArg CivilDate.mk
  have hmoon : (fullMoon year).dayNumber =
      Reckoning.julian.beforeMarch (year + 4800) + 21 + daysToFullMoon year := rfl
  have hpascha : dayNumber year = (fullMoon year).dayNumber + 1 +
      (2 * (year % 4) + 4 * (year % 7) + 6 * (daysToFullMoon year + 1)) % 7 := by
    simp only [dayNumber, daysAfterEquinox, daysToFullMoon_succ, hmoon]
    omega
  have hmarch : Reckoning.julian.beforeMarch (year + 4800) =
      -1753508 + 365 * (year + 4800) + (year / 4 + 1200) := by
    simp only [Reckoning.beforeMarch, Reckoning.julianEpoch]
    omega
  -- A year of 365 days moves the weekday by one, and every fourth year by one more.
  have hsunday : dayNumber year % 7 = 0 := by
    rw [hpascha, hmoon, hmarch]
    omega
  rw [hpascha] at hsunday ⊢
  omega

/-- If the Pascha of a year is a supported date, then so are the days of March before it. -/
theorem toCivil_march_eq_ok {r : Reckoning} {year : Int} (hyear : 0 ≤ year)
    (hsupported : (ofYear year).Supported) {day : Nat} (hday : 1 ≤ day) (hday' : day ≤ 31)
    (hbefore : r.beforeMarch (year + 4800) + day ≤ dayNumber year) :
    r.toCivil ⟨year, 3, day⟩ = .ok ⟨r.beforeMarch (year + 4800) + day⟩ := by
  have hlast : dayNumber year ≤ 95745399 := hsupported.2
  have hcount : r.dayNumber ⟨year, 3, day⟩ = r.beforeMarch (year + 4800) + day := by
    rw [r.dayNumber_eq]
    simp [Reckoning.marchYear, Reckoning.marchDay]
  have hmono : r.beforeMarch 4800 ≤ r.beforeMarch (year + 4800) := r.beforeMarch_mono (by omega)
  have hstart : -1000 ≤ r.beforeMarch 4800 := by
    cases r <;> decide
  rw [Reckoning.toCivil_eq_ok_iff]
  refine ⟨⟨by simp, by simp⟩, ⟨hday, hday'⟩, hday', by rw [hcount], ?_⟩
  constructor
  · dsimp only
    omega
  · dsimp only
    omega

/-- Either reckoning gives the Pascha of a year if it is a supported date. -/
theorem date_eq_ok (r : Reckoning) {year : Int} (hyear : 0 ≤ year)
    (hsupported : (ofYear year).Supported) : Pascha.date r year = .ok (ofYear year) := by
  have hdrift := Reckoning.beforeMarch_julian_eq year
  obtain ⟨hlow, -⟩ := dayNumber_bounds year
  have hbefore : r.beforeMarch (year + 4800) + (1 : Nat) ≤ dayNumber year := by
    cases r with
    | gregorian =>
      change Reckoning.gregorian.beforeMarch (year + 4800) + 1 ≤ dayNumber year
      omega
    | julian =>
      change Reckoning.julian.beforeMarch (year + 4800) + 1 ≤ dayNumber year
      omega
  have hmarch := toCivil_march_eq_ok hyear hsupported (by decide) (by decide) hbefore
  have hpascha : (⟨r.beforeMarch (year + 4800) + (1 : Nat)⟩ : CivilDate) +
      offset (monthDay r year) = ofYear year := by
    apply congrArg CivilDate.mk
    change r.beforeMarch (year + 4800) + 1 + offset (monthDay r year) = dayNumber year
    rw [offset_monthDay r hyear, dayNumber_eq r hyear]
    omega
  calc
    Pascha.date r year
      = if (ofYear year).Supported then .ok (ofYear year) else .error .pastLastDate := by
        unfold Pascha.date
        rw [hmarch, ← hpascha]
        rfl
    _ = .ok (ofYear year) := if_pos hsupported

/-- Pascha of the Julian calendar falls in March or April. -/
theorem exists_monthDay_julian_eq (year : Int) :
    ∃ month day, monthDay .julian year = (month, day) ∧
      (month = 3 ∧ 22 ≤ day ∧ day ≤ 31 ∨ month = 4 ∧ 1 ≤ day ∧ day ≤ 25) ∧
      Reckoning.marchDay month day = 21 + daysAfterEquinox .julian year := by
  have hone : 1 ≤ daysAfterEquinox .julian year := by
    simp only [daysAfterEquinox, daysToFullMoon_succ, daysToFullMoon]
    omega
  obtain ⟨-, hhigh⟩ := daysAfterEquinox_julian_bounds year
  obtain ⟨n, hn⟩ : ∃ n, daysAfterEquinox .julian year = n := ⟨_, rfl⟩
  rw [hn] at hone hhigh ⊢
  have hmay : ¬n > 40 := by omega
  by_cases hapril : n > 10
  · refine ⟨4, (n - 10).toNat, by simp only [monthDay, hn, hmay, hapril, ↓reduceIte], ?_, ?_⟩
    · omega
    · simp only [Reckoning.marchDay]
      omega
  · refine ⟨3, ((n + 21) % 4294967296).toNat,
      by simp only [monthDay, hn, hmay, hapril, ↓reduceIte], ?_, ?_⟩
    · omega
    · simp only [Reckoning.marchDay]
      omega

theorem label_ofYear (year : Int) :
    Reckoning.julian.label (ofYear year) =
      ⟨year, (monthDay .julian year).1, (monthDay .julian year).2⟩ := by
  obtain ⟨month, day, hmonthDay, hspring, hplace⟩ := exists_monthDay_julian_eq year
  rw [hmonthDay, Reckoning.label_eq_iff, Reckoning.dayNumber_eq]
  have hyear : Reckoning.marchYear year month = year + 4800 := by
    rw [Reckoning.marchYear, if_neg (by omega)]
    omega
  refine ⟨?_, ?_⟩
  · rcases hspring with ⟨rfl, hday, hday'⟩ | ⟨rfl, hday, hday'⟩
    · exact ⟨by simp, by simp, Nat.le_trans (by decide) hday, hday'⟩
    · exact ⟨by simp, by simp, hday, Nat.le_trans hday' (by decide : 25 ≤ 30)⟩
  · dsimp only
    rw [hyear, hplace]
    change dayNumber year = _
    rw [dayNumber]
    omega

/-- From the year 0 on, as far as dates are supported, both reckonings give the same Pascha: the
first Sunday after the full moon that the nineteen-year cycle puts so many days after 21 March of
the Julian calendar. There its label is the month and day of Gauss's congruence, from 22 March to
25 April. -/
theorem date_eq_firstSundayAfter_fullMoon {year : Int} (hyear : 0 ≤ year)
    (hsupported : (Elevation.sundayAfter (fullMoon year)).Supported) :
    ∃ equinox pascha : CivilDate,
      Reckoning.julian.toCivil ⟨year, 3, 21⟩ = .ok equinox ∧
        Pascha.date .julian year = .ok pascha ∧ Pascha.date .gregorian year = .ok pascha ∧
        pascha.weekday = .sunday ∧
        pascha.IsFirstSundayAfter (equinox + (19 * (year % 19) + 15) % 30) ∧
        ∃ month day, monthDay .julian year = (month, day) ∧
          Reckoning.julian.label pascha = ⟨year, month, day⟩ ∧
          (month = 3 ∧ 22 ≤ day ∧ day ≤ 31 ∨ month = 4 ∧ 1 ≤ day ∧ day ≤ 25) := by
  have hsunday := Elevation.isFirstSundayAfter_sundayAfter (fullMoon year)
  rw [← ofYear_eq_sundayAfter_fullMoon] at hsupported hsunday
  obtain ⟨hlow, -⟩ := dayNumber_bounds year
  have hequinox := toCivil_march_eq_ok hyear hsupported (by decide) (by decide : 21 ≤ 31) hlow
  obtain ⟨month, day, hmonthDay, hspring, -⟩ := exists_monthDay_julian_eq year
  have hlabel := label_ofYear year
  rw [hmonthDay] at hlabel
  exact ⟨_, _, hequinox, date_eq_ok .julian hyear hsupported,
    date_eq_ok .gregorian hyear hsupported, hsunday.weekday, hsunday, month, day, hmonthDay, hlabel,
    hspring⟩

/-- In 9990 Pascha is on 22 March of the Julian calendar, which the Gregorian rule calls 34 May. -/
theorem date_eq_firstSundayAfter_fullMoon_lateMay :
    (Elevation.sundayAfter (fullMoon 9990)).Supported ∧ monthDay .gregorian 9990 = (5, 34) ∧
      ∃ pascha, Pascha.date .gregorian 9990 = .ok pascha ∧ Pascha.date .julian 9990 = .ok pascha ∧
        pascha.weekday = .sunday ∧ Reckoning.julian.label pascha = ⟨9990, 3, 22⟩ := by
  have hsupported : (Elevation.sundayAfter (fullMoon 9990)).Supported := by decide
  obtain ⟨_, pascha, -, hjulian, hgregorian, hsunday, -, month, day, hmonthDay, hlabel, -⟩ :=
    date_eq_firstSundayAfter_fullMoon (by decide) hsupported
  have hcount : monthDay .julian 9990 = (3, 22) := by decide
  obtain ⟨rfl, rfl⟩ := Prod.mk.inj (hmonthDay.symm.trans hcount)
  exact ⟨hsupported, by decide, pascha, hgregorian, hjulian, hsunday, hlabel⟩

end Pascha

end Typikon
