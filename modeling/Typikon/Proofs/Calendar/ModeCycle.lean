import Typikon.Proofs.Calendar.Seasons

/-!
The cycle of the eight modes. It starts at every Pascha, runs through the modes of Bright Week by
the day, and from Thomas Sunday on by the week, up to the next Pascha.
-/

namespace Typikon

namespace CivilDate

/-- The number of a week. Weeks begin on Sundays. -/
def week (date : CivilDate) : Int :=
  date.dayNumber / 7

theorem le_of_week_eq {a b sunday : CivilDate} (hsunday : sunday.dayNumber % 7 = 0)
    (hweek : a.week = b.week) (h : sunday ≤ a) : sunday ≤ b := by
  rw [week, week] at hweek
  rw [le_iff] at h ⊢
  omega

end CivilDate

namespace LiturgicalDay

/-- The mode a number of days after the last Pascha. -/
def modeAfterPascha (days : Int) : Nat :=
  if days < 7 then brightWeekModes.getD days.toNat 0 else modeAfterThomasSunday (days - 7)

theorem modeAfterPascha_of_seven_le {days : Int} (h : 7 ≤ days) :
    (modeAfterPascha days : Int) = (days - 7) / 7 % 8 + 1 := by
  have hlate : ¬days < 7 := by omega
  rw [modeAfterPascha, if_neg hlate, modeAfterThomasSunday]
  omega

theorem modeAfterPascha_of_lt_seven {days : Int} (hlow : 0 ≤ days) (hhigh : days < 7) :
    brightWeekModes[days.toNat]? = some (modeAfterPascha days) := by
  have hlength : days.toNat < brightWeekModes.length := by
    simp only [brightWeekModes, List.length_cons, List.length_nil]
    omega
  rw [modeAfterPascha, if_pos hhigh, List.getD_eq_getElem?_getD,
    List.getElem?_eq_getElem hlength, Option.getD_some]

theorem getD_brightWeekModes {days : Int} (h : 0 ≤ days) :
    brightWeekModes.getD days.toNat (modeAfterThomasSunday (days - 7)) = modeAfterPascha days := by
  rw [List.getD_eq_getElem?_getD]
  rcases Int.lt_or_le days 7 with hbright | hlater
  · rw [modeAfterPascha_of_lt_seven h hbright, Option.getD_some]
  · have hlength : brightWeekModes.length ≤ days.toNat := by
      simp only [brightWeekModes, List.length_cons, List.length_nil]
      omega
    rw [List.getElem?_eq_none hlength, Option.getD_none, modeAfterPascha,
      if_neg (Int.not_lt.2 hlater)]

theorem modeAfterPascha_bounds {days : Int} (h : 0 ≤ days) :
    1 ≤ modeAfterPascha days ∧ modeAfterPascha days ≤ 8 := by
  rcases Int.lt_or_le days 7 with hbright | hlater
  · have hmember := List.mem_of_getElem? (modeAfterPascha_of_lt_seven h hbright)
    have hall : ∀ mode ∈ brightWeekModes, 1 ≤ mode ∧ mode ≤ 8 := by decide
    exact hall _ hmember
  · have hmode := modeAfterPascha_of_seven_le hlater
    omega

/-- From Bright Saturday on, the mode moves by one in every week. The weeks are those of the count
of days, where a Sunday is a multiple of seven, as Pascha is. -/
theorem modeAfterPascha_run {pascha a b : Int} (hpascha : pascha % 7 = 0) (hbright : 6 ≤ a - pascha)
    (hle : a ≤ b) :
    (modeAfterPascha (b - pascha) : Int) =
      (modeAfterPascha (a - pascha) - 1 + (b / 7 - a / 7)) % 8 + 1 := by
  rcases Int.lt_or_eq_of_le hbright with hlater | hsaturday
  · rw [modeAfterPascha_of_seven_le hlater, modeAfterPascha_of_seven_le (by omega)]
    omega
  · have hmode : modeAfterPascha (a - pascha) = 8 := by
      rw [← hsaturday]
      rfl
    rw [hmode]
    rcases Int.lt_or_eq_of_le hle with hlt | rfl
    · rw [modeAfterPascha_of_seven_le (by omega)]
      omega
    · rw [hmode]
      omega

section OfDate

variable {r : Reckoning} {date : CivilDate} {a : Anchors} {d : LiturgicalDay}

/-- The table of Bright Week goes by the day of this year's season and the weeks by the last
Pascha, which in the Pentecostarion is this year's. -/
theorem modeOfWeek_ofAnchors (hyear : IsLiturgicalYear (r.label date).year)
    (ha : a.AreOfYear r (r.label date).year) :
    (ofAnchors r date a).modeOfWeek =
      modeAfterPascha (date - (ofAnchors r date a).paschaLast) := by
  obtain ⟨year, -, -, hlast, -, hle, -⟩ := exists_paschaLast_paschaNext hyear ha
  rw [← hlast] at hle
  have hmode : (ofAnchors r date a).modeOfWeek =
      if (ofAnchors r date a).isPentecostarion then
        brightWeekModes.getD ((ofAnchors r date a).dayOfSeason - 71).toNat
          (modeAfterThomasSunday (date - (ofAnchors r date a).paschaLast - 7))
      else modeAfterThomasSunday (date - (ofAnchors r date a).paschaLast - 7) := by
    rw [← CivilDate.sub_add_eq]
    rfl
  rw [hmode]
  by_cases hseason : (ofAnchors r date a).isPentecostarion
  · have hday : (ofAnchors r date a).dayOfSeason - 71 = date - (ofAnchors r date a).paschaLast := by
      rw [dayOfSeason_ofAnchors (.inr hseason), paschaLast_of_isPentecostarion hseason,
        CivilDate.sub_eq, Int.add_sub_cancel]
    have hdays : 0 ≤ (date - (ofAnchors r date a).paschaLast : Int) := Int.sub_nonneg_of_le hle
    rw [if_pos hseason, hday, getD_brightWeekModes hdays]
  · have hlate : ¬(date - (ofAnchors r date a).paschaLast : Int) < 7 := by
      rw [isPentecostarion_iff_paschaLast hyear ha, CivilDate.le_iff, CivilDate.le_iff,
        CivilDate.dayNumber_add] at hseason
      rw [CivilDate.le_iff] at hle
      rw [CivilDate.sub_eq]
      omega
    rw [if_neg hseason, modeAfterPascha, if_neg hlate]

/-- The mode of a date is counted from the latest Pascha up to it, which is a Sunday. -/
theorem exists_modeOfWeek_eq (h : ofDate r date = .ok d) :
    ∃ pascha, IsGreatest {other | other ∈ Pascha.all ∧ other ≤ date} pascha ∧
      pascha.dayNumber % 7 = 0 ∧ d.modeOfWeek = modeAfterPascha (date - pascha) := by
  obtain ⟨hyear, a, hanchors, rfl⟩ := exists_anchors h
  have ha := Anchors.areOfYear_of_ofYear hyear hanchors
  obtain ⟨year, hlow, -, hlast, -, hle, hlt⟩ := exists_paschaLast_paschaNext hyear ha
  refine ⟨Pascha.ofYear year, Pascha.isGreatest_ofYear (by omega) hle hlt,
    Pascha.dayNumber_emod_seven year, ?_⟩
  rw [modeOfWeek_ofAnchors hyear ha, hlast]

theorem modeOfWeek_bounds (h : ofDate r date = .ok d) : 1 ≤ d.modeOfWeek ∧ d.modeOfWeek ≤ 8 := by
  obtain ⟨pascha, hpascha, -, hmode⟩ := exists_modeOfWeek_eq h
  rw [hmode]
  exact modeAfterPascha_bounds (Int.sub_nonneg_of_le hpascha.1.2)

section LastPascha

variable {r' : Reckoning} {date' pascha : CivilDate} {d' : LiturgicalDay}

theorem modeOfWeek_eq (h : ofDate r date = .ok d)
    (hpascha : IsGreatest {other | other ∈ Pascha.all ∧ other ≤ date} pascha) :
    pascha.dayNumber % 7 = 0 ∧ d.modeOfWeek = modeAfterPascha (date - pascha) := by
  obtain ⟨other, hother, hsunday, hmode⟩ := exists_modeOfWeek_eq h
  obtain rfl : other = pascha :=
    CivilDate.eq_of_isGreatest_of_le hother hpascha hother.1.2 hpascha.1.2
  exact ⟨hsunday, hmode⟩

/-- Up to the next Pascha the mode moves by one in every week, whichever reckoning's years the two
dates lie in. -/
theorem modeOfWeek_run (h : ofDate r date = .ok d) (h' : ofDate r' date' = .ok d')
    (hpascha : IsGreatest {other | other ∈ Pascha.all ∧ other ≤ date} pascha)
    (hbright : pascha + (6 : Int) ≤ date) (hle : date ≤ date')
    (hnext : ∀ other ∈ Pascha.all, other ≤ date' → other ≤ date) :
    (d'.modeOfWeek : Int) =
      (d.modeOfWeek - 1 + (date'.week - date.week)) % 8 + 1 := by
  obtain ⟨hsunday, hmode⟩ := modeOfWeek_eq h hpascha
  obtain ⟨last, hlast, -, hmode'⟩ := exists_modeOfWeek_eq h'
  obtain rfl : last = pascha := CivilDate.eq_of_isGreatest_of_le hlast hpascha
    (hnext last hlast.1.1 hlast.1.2) (Int.le_trans hpascha.1.2 hle)
  rw [hmode, hmode']
  rw [CivilDate.le_iff, CivilDate.dayNumber_add] at hbright
  exact modeAfterPascha_run hsunday (by omega) hle

theorem modeOfWeek_eq_of_week_eq (h : ofDate r date = .ok d) (h' : ofDate r' date' = .ok d')
    (hpascha : IsGreatest {other | other ∈ Pascha.all ∧ other ≤ date} pascha)
    (hlate : pascha + (7 : Int) ≤ date) (hweek : date'.week = date.week) :
    d'.modeOfWeek = d.modeOfWeek := by
  obtain ⟨hsunday, hmode⟩ := modeOfWeek_eq h hpascha
  obtain ⟨last, hlast, hlastSunday, hmode'⟩ := exists_modeOfWeek_eq h'
  -- No Pascha comes between two dates of a week, as it is a Sunday.
  obtain rfl : last = pascha := CivilDate.eq_of_isGreatest_of_le hlast hpascha
    (CivilDate.le_of_week_eq hlastSunday hweek hlast.1.2)
    (CivilDate.le_of_week_eq hsunday hweek.symm hpascha.1.2)
  rw [CivilDate.le_iff, CivilDate.dayNumber_add] at hlate
  rw [CivilDate.week, CivilDate.week] at hweek
  have hcount := modeAfterPascha_of_seven_le
    (show 7 ≤ date.dayNumber - last.dayNumber by omega)
  have hcount' := modeAfterPascha_of_seven_le
    (show 7 ≤ date'.dayNumber - last.dayNumber by omega)
  rw [hmode, hmode', CivilDate.sub_eq, CivilDate.sub_eq]
  omega

/-- The Sunday that ends a week brings the next mode, unless it is Pascha. -/
theorem modeOfWeek_of_week_eq_add_one (h : ofDate r date = .ok d) (h' : ofDate r' date' = .ok d')
    (hpascha : IsGreatest {other | other ∈ Pascha.all ∧ other ≤ date} pascha)
    (hbright : pascha + (6 : Int) ≤ date) (hsunday : date'.weekday = .sunday)
    (hweek : date'.week = date.week + 1) (hnone : date' ∉ Pascha.all) :
    d'.modeOfWeek = d.modeOfWeek % 8 + 1 := by
  obtain ⟨last, ⟨⟨hall, hbefore⟩, hlatest⟩, hlastSunday, -⟩ := exists_modeOfWeek_eq h'
  have hlt := CivilDate.lt_of_mem_of_not_mem hbefore hall hnone
  rw [CivilDate.weekday_eq_sunday_iff] at hsunday
  have hweeks := hweek
  rw [CivilDate.week, CivilDate.week] at hweeks
  have hle : date ≤ date' := by
    rw [CivilDate.le_iff]
    omega
  have hlast : last ≤ date := by
    rw [CivilDate.lt_iff] at hlt
    rw [CivilDate.le_iff]
    omega
  have hrun := modeOfWeek_run h h' hpascha hbright hle fun other hother hup =>
    Int.le_trans (hlatest ⟨hother, hup⟩) hlast
  obtain ⟨hlow, hhigh⟩ := modeOfWeek_bounds h
  rw [hweek] at hrun
  omega

end LastPascha

/-- The mode of a date goes by the days from the latest Pascha of all years: in Bright Week by the
day, later by the week. So it stays in a week, moves on with every Sunday and starts again on
Pascha, in whichever reckoning's years the dates lie. -/
theorem modeOfWeek_follows_cycle (h : ofDate r date = .ok d) :
    (∃ pascha days, IsGreatest {other | other ∈ Pascha.all ∧ other ≤ date} pascha ∧
      days = (date - pascha : Int) ∧
      (days < 7 → [1, 2, 3, 4, 5, 6, 8][days.toNat]? = some d.modeOfWeek) ∧
      (7 ≤ days → (d.modeOfWeek : Int) = (days - 7) / 7 % 8 + 1) ∧
      ∀ r' date' d', ofDate r' date' = .ok d' →
        (7 ≤ days → date'.week = date.week → d'.modeOfWeek = d.modeOfWeek) ∧
        (6 ≤ days → date'.weekday = .sunday → date'.week = date.week + 1 → date' ∉ Pascha.all →
          d'.modeOfWeek = d.modeOfWeek % 8 + 1) ∧
        (6 ≤ days → date ≤ date' → (∀ other ∈ Pascha.all, other ≤ date' → other ≤ date) →
          (d'.modeOfWeek : Int) = (d.modeOfWeek - 1 + (date'.week - date.week)) % 8 + 1)) ∧
      (date ∈ Pascha.all → d.modeOfWeek = 1) ∧ 1 ≤ d.modeOfWeek ∧ d.modeOfWeek ≤ 8 := by
  obtain ⟨pascha, hpascha, -, hmode⟩ := exists_modeOfWeek_eq h
  refine ⟨⟨pascha, date - pascha, hpascha, rfl, ?_, ?_, ?_⟩, ?_, modeOfWeek_bounds h⟩
  · intro hbright
    rw [hmode]
    exact modeAfterPascha_of_lt_seven (Int.sub_nonneg_of_le hpascha.1.2) hbright
  · intro hlate
    rw [hmode]
    exact modeAfterPascha_of_seven_le hlate
  · intro r' date' d' h'
    exact ⟨
      fun hlate => modeOfWeek_eq_of_week_eq h h' hpascha (CivilDate.add_le_of_le_sub hlate),
      fun hbright =>
        modeOfWeek_of_week_eq_add_one h h' hpascha (CivilDate.add_le_of_le_sub hbright),
      fun hbright => modeOfWeek_run h h' hpascha (CivilDate.add_le_of_le_sub hbright)⟩
  · intro hdate
    have hself : pascha = date :=
      CivilDate.le_antisymm hpascha.1.2 (hpascha.2 ⟨hdate, Int.le_refl _⟩)
    rw [hmode, hself, CivilDate.sub_eq, Int.sub_self]
    rfl

/-- On 1 January 2023 the weeks are counted from the Pascha of 2022. -/
theorem modeOfWeek_follows_cycle_newYear :
    ∃ d, ofDate .gregorian ⟨738521⟩ = .ok d ∧ d.year = 2023 ∧ d.modeOfWeek = 4 := by
  obtain ⟨d, hd⟩ := exists_ofDate_eq_ok_iff.2
    (show IsLiturgicalYear (Reckoning.gregorian.label ⟨738521⟩).year by decide)
  obtain ⟨⟨pascha, days, hgreatest, rfl, -, hlate, -⟩, -⟩ := modeOfWeek_follows_cycle hd
  have hpascha : IsGreatest {other | other ∈ Pascha.all ∧ other ≤ (⟨738521⟩ : CivilDate)}
      (Pascha.ofYear 2022) :=
    Pascha.isGreatest_ofYear (by decide) (by decide) (by decide)
  obtain rfl : pascha = Pascha.ofYear 2022 :=
    CivilDate.eq_of_isGreatest_of_le hgreatest hpascha hgreatest.1.2 hpascha.1.2
  have hmode : (d.modeOfWeek : Int) = 4 := hlate (by decide)
  refine ⟨d, hd, ?_, Int.ofNat.inj hmode⟩
  cases hd
  rfl

end OfDate

end LiturgicalDay

end Typikon
