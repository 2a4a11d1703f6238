import Typikon.Proofs.Calendar.NearestAnchors

/-!
The cycle of the eleven Resurrection Gospels. It starts at All Saints, eight weeks after every
Pascha, and moves on with every Sunday up to the next All Saints.
-/

namespace Typikon

namespace Pascha

/-- The Sundays of All Saints, in all years. -/
def allSaints : Set CivilDate :=
  {day | ∃ pascha ∈ all, day = pascha + (56 : Int)}

/-- All Saints of a year. -/
def allSaintsOfYear (year : Int) : CivilDate :=
  ofYear year + (56 : Int)

theorem weekday_allSaintsOfYear (year : Int) : (allSaintsOfYear year).weekday = .sunday := by
  have hpascha := dayNumber_emod_seven year
  rw [CivilDate.weekday_eq_sunday_iff, allSaintsOfYear, CivilDate.dayNumber_add]
  omega

/-- A date of a liturgical year comes after All Saints of the year before, and before that of the
year after. -/
theorem allSaintsOfYear_le_and_lt {r : Reckoning} {date : CivilDate}
    (h : IsLiturgicalYear (r.label date).year) :
    allSaintsOfYear ((r.label date).year - 1) ≤ date ∧
      date < allSaintsOfYear ((r.label date).year + 1) := by
  obtain ⟨hbefore, hafter⟩ := lt_and_lt_of_isLiturgicalYear h
  rw [CivilDate.lt_iff, CivilDate.dayNumber_add] at hbefore hafter
  rw [CivilDate.le_iff, CivilDate.lt_iff, allSaintsOfYear, allSaintsOfYear,
    CivilDate.dayNumber_add, CivilDate.dayNumber_add]
  omega

end Pascha

namespace LiturgicalDay

section Gospel

variable {days : Int}

/-- From All Saints on the remainder is one of the eleven, and its word holds it. -/
theorem gospelAfterAllSaints_eq (h : 0 ≤ days) :
    (gospelAfterAllSaints days : Int) = days / 7 % 11 + 1 := by
  have hweeks : 0 ≤ days / 7 := by omega
  rw [gospelAfterAllSaints, Int.tmod_eq_emod_of_nonneg hweeks]
  omega

theorem gospelAfterAllSaints_ne_zero (h : 0 ≤ days) : gospelAfterAllSaints days ≠ 0 := by
  have hgospel := gospelAfterAllSaints_eq h
  omega

/-- In a week the Gospel moves on to the next one, and from the eleventh to the first. -/
theorem gospelAfterAllSaints_add_seven (h : 0 ≤ days) :
    gospelAfterAllSaints (days + 7) = gospelAfterAllSaints days % 11 + 1 := by
  have hweek := gospelAfterAllSaints_eq h
  have hnext := gospelAfterAllSaints_eq (show 0 ≤ days + 7 by omega)
  omega

theorem sub_nonneg_of_isGreatest {days : Set CivilDate} {date day : CivilDate}
    (h : IsGreatest {day | day ∈ days ∧ day ≤ date} day) : (0 : Int) ≤ date - day := by
  have hle := CivilDate.le_iff.1 h.1.2
  rw [CivilDate.sub_eq]
  omega

end Gospel

section OfDate

variable {r r' : Reckoning} {date allSaints : CivilDate} {d d' : LiturgicalDay}

/-- The Gospel of a date is counted from the latest All Saints up to it, which is a Sunday. -/
theorem exists_eothinon_eq (h : ofDate r date = .ok d) :
    ∃ allSaints, IsGreatest {day | day ∈ Pascha.allSaints ∧ day ≤ date} allSaints ∧
      allSaints.weekday = .sunday ∧
      d.eothinon =
        if date.weekday = .sunday then gospelAfterAllSaints (date - allSaints) else 0 := by
  obtain ⟨hyear, a, hanchors, rfl⟩ := exists_anchors h
  have ha := Anchors.areOfYear_of_ofYear hyear hanchors
  obtain ⟨hbefore, hafter⟩ := Pascha.allSaintsOfYear_le_and_lt hyear
  obtain ⟨year, hlow, hle, hlt, hpick⟩ := CivilDate.exists_year_of_pick hbefore hafter
  have heothinon : (ofAnchors r date a).eothinon =
      if date.weekday = .sunday then
        gospelAfterAllSaints (date - (if date < a.paschaThisYear + (56 : Int) then
          a.paschaLastYear + (56 : Int) else a.paschaThisYear + (56 : Int)))
      else 0 := rfl
  have hfirst := hyear.1
  rw [heothinon, ha.paschaLastYear, ha.paschaThisYear]
  exact ⟨_, Pascha.isGreatest_ofYear_add (by omega) hle hlt, Pascha.weekday_allSaintsOfYear year,
    congrArg (fun day => if date.weekday = .sunday then gospelAfterAllSaints (date - day) else 0)
      (hpick Pascha.allSaintsOfYear)⟩

theorem eothinon_of_sunday (h : ofDate r date = .ok d) (hsunday : date.weekday = .sunday)
    (hallSaints : IsGreatest {day | day ∈ Pascha.allSaints ∧ day ≤ date} allSaints) :
    d.eothinon = gospelAfterAllSaints (date - allSaints) := by
  obtain ⟨other, hother, -, heothinon⟩ := exists_eothinon_eq h
  obtain rfl : other = allSaints :=
    CivilDate.eq_of_isGreatest_of_le hother hallSaints hother.1.2 hallSaints.1.2
  rw [heothinon, if_pos hsunday]

theorem eothinon_of_mem_allSaints (h : ofDate r date = .ok d) (hsunday : date.weekday = .sunday)
    (hdate : date ∈ Pascha.allSaints) : d.eothinon = 1 := by
  have hself : IsGreatest {day | day ∈ Pascha.allSaints ∧ day ≤ date} date :=
    ⟨⟨hdate, Int.le_refl _⟩, fun _ hother => hother.2⟩
  rw [eothinon_of_sunday h hsunday hself, CivilDate.sub_eq, Int.sub_self]
  rfl

theorem eothinon_eq_zero_iff (h : ofDate r date = .ok d) :
    d.eothinon = 0 ↔ date.weekday ≠ .sunday := by
  obtain ⟨allSaints, hallSaints, -, heothinon⟩ := exists_eothinon_eq h
  rw [heothinon]
  by_cases hsunday : date.weekday = .sunday
  · rw [if_pos hsunday]
    exact iff_of_false (gospelAfterAllSaints_ne_zero (sub_nonneg_of_isGreatest hallSaints))
      (not_not_intro hsunday)
  · rw [if_neg hsunday]
    exact iff_of_true rfl hsunday

/-- From one Sunday to the next the Gospel moves on, unless that is All Saints. -/
theorem eothinon_add_seven (h : ofDate r date = .ok d)
    (h' : ofDate r' (date + (7 : Int)) = .ok d') (hsunday : date.weekday = .sunday)
    (hnext : date + (7 : Int) ∉ Pascha.allSaints) : d'.eothinon = d.eothinon % 11 + 1 := by
  obtain ⟨allSaints, hallSaints, -, -⟩ := exists_eothinon_eq h
  obtain ⟨other, hother, hotherSunday, -⟩ := exists_eothinon_eq h'
  have hlt := CivilDate.lt_of_mem_of_not_mem hother.1.2 hother.1.1 hnext
  have hsunday' := CivilDate.weekday_add_seven_eq_sunday hsunday
  -- All three are Sundays, and so the last All Saints is a week before the next one at least.
  have hbefore : other ≤ date := by
    rw [CivilDate.weekday_eq_sunday_iff] at hsunday hotherSunday
    rw [CivilDate.lt_iff, CivilDate.dayNumber_add] at hlt
    rw [CivilDate.le_iff]
    omega
  have hlater : date ≤ date + (7 : Int) := by
    rw [CivilDate.le_iff, CivilDate.dayNumber_add]
    omega
  obtain rfl : other = allSaints := CivilDate.eq_of_isGreatest_of_le hother hallSaints hbefore
    (Int.le_trans hallSaints.1.2 hlater)
  rw [eothinon_of_sunday h' hsunday' hother, eothinon_of_sunday h hsunday hallSaints,
    ← gospelAfterAllSaints_add_seven (sub_nonneg_of_isGreatest hallSaints), CivilDate.sub_eq,
    CivilDate.sub_eq, CivilDate.dayNumber_add]
  congr 1
  omega

/-- The Resurrection Gospels are read on Sundays only, and go by the weeks from the latest All
Saints of all years: from one Sunday to the next they move on by one, and from the eleventh to the
first, and start again on All Saints, in whichever reckoning's years the Sundays lie. -/
theorem eothinon_follows_cycle (h : ofDate r date = .ok d) :
    (d.eothinon = 0 ↔ date.weekday ≠ .sunday) ∧
      (∃ allSaints, IsGreatest {day | day ∈ Pascha.allSaints ∧ day ≤ date} allSaints ∧
        (date.weekday = .sunday → (d.eothinon : Int) = (date - allSaints) / 7 % 11 + 1)) ∧
      ∀ r' d', ofDate r' (date + (7 : Int)) = .ok d' → date.weekday = .sunday →
        (date + (7 : Int) ∈ Pascha.allSaints → d'.eothinon = 1) ∧
        (date + (7 : Int) ∉ Pascha.allSaints → d'.eothinon = d.eothinon % 11 + 1) := by
  obtain ⟨allSaints, hallSaints, -, -⟩ := exists_eothinon_eq h
  refine ⟨eothinon_eq_zero_iff h, ⟨allSaints, hallSaints, fun hsunday => ?_⟩,
    fun r' d' h' hsunday => ⟨?_, eothinon_add_seven h h' hsunday⟩⟩
  · rw [eothinon_of_sunday h hsunday hallSaints,
      gospelAfterAllSaints_eq (sub_nonneg_of_isGreatest hallSaints)]
  · exact eothinon_of_mem_allSaints h' (CivilDate.weekday_add_seven_eq_sunday hsunday)

/-- The first Sunday of 2025 goes on from the last one of 2024. -/
theorem eothinon_follows_cycle_newYear :
    ∃ d d', ofDate .gregorian ⟨739249⟩ = .ok d ∧ ofDate .gregorian ⟨739256⟩ = .ok d' ∧
      d.year = 2024 ∧ d'.year = 2025 ∧ d.eothinon = 5 ∧ d'.eothinon = 6 := by
  obtain ⟨d, hd⟩ := exists_ofDate_eq_ok_iff.2
    (show IsLiturgicalYear (Reckoning.gregorian.label ⟨739249⟩).year by decide)
  obtain ⟨d', hd'⟩ := exists_ofDate_eq_ok_iff.2
    (show IsLiturgicalYear (Reckoning.gregorian.label ⟨739256⟩).year by decide)
  have hyears : d.year = 2024 ∧ d'.year = 2025 := by
    cases hd
    cases hd'
    exact ⟨rfl, rfl⟩
  have hlast : IsGreatest {day | day ∈ Pascha.allSaints ∧ day ≤ ⟨739249⟩}
      (Pascha.ofYear 2024 + (56 : Int)) :=
    Pascha.isGreatest_ofYear_add (by decide) (by decide) (by decide)
  have hlast' : IsGreatest {day | day ∈ Pascha.allSaints ∧ day ≤ ⟨739256⟩}
      (Pascha.ofYear 2024 + (56 : Int)) :=
    Pascha.isGreatest_ofYear_add (by decide) (by decide) (by decide)
  have hnone : (⟨739256⟩ : CivilDate) ∉ Pascha.allSaints := fun hmem =>
    absurd (hlast'.2 ⟨hmem, Int.le_refl _⟩) (by decide)
  obtain ⟨-, ⟨allSaints, hallSaints, hcount⟩, hnext⟩ := eothinon_follows_cycle hd
  obtain rfl : allSaints = Pascha.ofYear 2024 + (56 : Int) :=
    CivilDate.eq_of_isGreatest_of_le hallSaints hlast hallSaints.1.2 hlast.1.2
  have hfive : (d.eothinon : Int) = 5 := hcount (by decide)
  have hsix : d'.eothinon = d.eothinon % 11 + 1 := (hnext _ d' hd' (by decide)).2 hnone
  refine ⟨d, d', hd, hd', hyears.1, hyears.2, Int.ofNat.inj hfive, ?_⟩
  rw [hsix, Int.ofNat.inj hfive]

end OfDate

end LiturgicalDay

end Typikon
