import Typikon.Proofs.Calendar.NearestAnchors

/-!
The Lukan cycle. It starts on the Monday after the Sunday after the Elevation of the Cross, in every
year of a reckoning, and the days are counted from its latest start. As the Sundays are 52 or 53
weeks apart, the cycles divide the days among them, and the last day of each is such a Sunday.
-/

namespace Typikon

namespace Elevation

/-- The Sundays after the Elevation of the Cross, 14 September, in all years of a reckoning. -/
def sundays (r : Reckoning) : Set CivilDate :=
  {sunday | ∃ year elevation, r.label elevation = ⟨year, 9, 14⟩ ∧
    sunday.IsFirstSundayAfter elevation}

/-- The Mondays on which the Lukan cycle starts. -/
def mondays (r : Reckoning) : Set CivilDate :=
  {monday | ∃ sunday ∈ sundays r, monday = sunday + (1 : Int)}

/-- The Elevation of the Cross in a year, which may be any year. -/
def ofYear (r : Reckoning) (year : Int) : CivilDate :=
  ⟨r.beforeMarch (year + 4800) + 198⟩

/-- The Sunday after the Elevation of the Cross in a year. -/
def sundayOfYear (r : Reckoning) (year : Int) : CivilDate :=
  sundayAfter (ofYear r year)

/-- The start of the Lukan cycle in a year. -/
def mondayOfYear (r : Reckoning) (year : Int) : CivilDate :=
  sundayOfYear r year + (1 : Int)

section Years

variable {r : Reckoning} {year : Int} {date : CivilDate}

theorem label_eq_iff : r.label date = ⟨year, 9, 14⟩ ↔ date = ofYear r year := by
  have hnames : (⟨year, 9, 14⟩ : Label).NamesDay r := by
    constructor <;> simp [Reckoning.daysInMonth]
  have hplace : Reckoning.marchDay 9 14 = 198 := rfl
  have hyear : Reckoning.marchYear year 9 = year + 4800 := by simp [Reckoning.marchYear]
  rw [Reckoning.label_eq_iff, Reckoning.dayNumber_eq, hplace, hyear, and_iff_right hnames]
  constructor
  · intro hday
    exact CivilDate.eq_of_dayNumber_eq hday
  · rintro rfl
    rfl

theorem isFirstSundayAfter_iff {sunday : CivilDate} :
    sunday.IsFirstSundayAfter date ↔ sunday = sundayAfter date := by
  have hfirst := isFirstSundayAfter_sundayAfter date
  constructor
  · intro h
    exact CivilDate.le_antisymm (h.first _ hfirst.weekday hfirst.after)
      (hfirst.first _ h.weekday h.after)
  · rintro rfl
    exact hfirst

theorem sundays_eq_range (r : Reckoning) : sundays r = Set.range (sundayOfYear r) := by
  ext sunday
  constructor
  · rintro ⟨year, elevation, hlabel, hsunday⟩
    rw [label_eq_iff.1 hlabel, isFirstSundayAfter_iff] at hsunday
    exact ⟨year, hsunday.symm⟩
  · rintro ⟨year, rfl⟩
    exact ⟨year, ofYear r year, label_eq_iff.2 rfl, isFirstSundayAfter_sundayAfter _⟩

theorem mondays_eq_range (r : Reckoning) : mondays r = Set.range (mondayOfYear r) := by
  ext monday
  rw [mondays, sundays_eq_range]
  constructor
  · rintro ⟨_, ⟨year, rfl⟩, rfl⟩
    exact ⟨year, rfl⟩
  · rintro ⟨year, rfl⟩
    exact ⟨_, ⟨year, rfl⟩, rfl⟩

theorem add_one_mem_mondays_iff : date + (1 : Int) ∈ mondays r ↔ date ∈ sundays r := by
  constructor
  · rintro ⟨sunday, hsunday, hnext⟩
    have hday : date.dayNumber + 1 = sunday.dayNumber + 1 := congrArg CivilDate.dayNumber hnext
    obtain rfl : date = sunday := CivilDate.eq_of_dayNumber_eq (by omega)
    exact hsunday
  · intro hsunday
    exact ⟨date, hsunday, rfl⟩

theorem dayNumber_sundayOfYear (r : Reckoning) (year : Int) :
    (sundayOfYear r year).dayNumber =
      (r.beforeMarch (year + 4800) + 198) / 7 * 7 + 7 := by
  change r.beforeMarch (year + 4800) + 198 + (7 - (r.beforeMarch (year + 4800) + 198) % 7) = _
  omega

theorem sundayOfYear_le {y z : Int} (h : y ≤ z) : sundayOfYear r y ≤ sundayOfYear r z := by
  have hyears := r.beforeMarch_mono (Int.add_le_add_right h 4800)
  rw [CivilDate.le_iff, dayNumber_sundayOfYear, dayNumber_sundayOfYear]
  omega

theorem mondayOfYear_le {y z : Int} (h : y ≤ z) : mondayOfYear r y ≤ mondayOfYear r z :=
  Int.add_le_add_right (sundayOfYear_le h) 1

/-- From one year to the next the Sunday is 52 or 53 weeks later. -/
theorem dayNumber_sundayOfYear_succ (r : Reckoning) (year : Int) :
    (sundayOfYear r (year + 1)).dayNumber = (sundayOfYear r year).dayNumber + 364 ∨
      (sundayOfYear r (year + 1)).dayNumber = (sundayOfYear r year).dayNumber + 371 := by
  have hlength := r.beforeMarch_succ (year + 4800)
  have hnext : year + 1 + 4800 = year + 4800 + 1 := by omega
  rw [dayNumber_sundayOfYear, dayNumber_sundayOfYear, hnext]
  split at hlength <;> omega

/-- A date comes after the Sunday of the year before its own, and before that of the year after. -/
theorem sundayOfYear_lt_and_lt (r : Reckoning) (date : CivilDate) :
    sundayOfYear r ((r.label date).year - 1) < date ∧
      date < sundayOfYear r ((r.label date).year + 1) := by
  obtain ⟨hstart, hend⟩ := r.newYear_le_and_lt date
  generalize (r.label date).year = year at *
  have hlength := r.beforeMarch_succ (year + 4800)
  have hbefore : year - 1 + 4800 = year + 4799 := by omega
  have hafter : year + 1 + 4799 = year + 4800 := by omega
  have hafter' : year + 1 + 4800 = year + 4800 + 1 := by omega
  rw [Reckoning.newYear] at hstart
  rw [Reckoning.newYear, hafter] at hend
  rw [CivilDate.lt_iff, CivilDate.lt_iff, dayNumber_sundayOfYear, dayNumber_sundayOfYear, hbefore,
    hafter']
  split at hlength <;> omega

end Years

end Elevation

namespace LiturgicalDay

section OfDate

variable {r : Reckoning} {date : CivilDate} {d d' : LiturgicalDay}

theorem daysSinceSundayAfterElevation_eq (h : ofDate r date = .ok d) :
    d.daysSinceSundayAfterElevation = date - d.sundayAfterElevationLast := by
  obtain ⟨-, a, -, rfl⟩ := exists_anchors h
  rfl

theorem daysSinceLukanStart_eq (h : ofDate r date = .ok d) :
    d.daysSinceLukanStart = date - d.lukanStartLast + 1 := by
  obtain ⟨-, a, -, rfl⟩ := exists_anchors h
  rfl

/-- The last Sunday after the Elevation is that of a year, and that of the next year is to come. -/
theorem exists_sundayAfterElevationLast (h : ofDate r date = .ok d) :
    ∃ year, d.elevationLast = Elevation.ofYear r year ∧
      d.sundayAfterElevationLast = Elevation.sundayOfYear r year ∧
      Elevation.sundayOfYear r year ≤ date ∧ date < Elevation.sundayOfYear r (year + 1) := by
  obtain ⟨hyear, a, hanchors, rfl⟩ := exists_anchors h
  have ha := Anchors.areOfYear_of_ofYear hyear hanchors
  obtain ⟨hbefore, hafter⟩ := Elevation.sundayOfYear_lt_and_lt r date
  obtain ⟨year, -, hle, hlt, hpick⟩ := CivilDate.exists_year_of_pick (Int.le_of_lt hbefore) hafter
  have helevation : (ofAnchors r date a).elevationLast =
      if date < Elevation.sundayAfter a.elevationThisYear then a.elevationLastYear
      else a.elevationThisYear := rfl
  have hsunday : (ofAnchors r date a).sundayAfterElevationLast =
      if date < Elevation.sundayAfter a.elevationThisYear then
        Elevation.sundayAfter a.elevationLastYear
      else Elevation.sundayAfter a.elevationThisYear := rfl
  rw [helevation, hsunday, Elevation.label_eq_iff.1 ha.elevationLastYear,
    Elevation.label_eq_iff.1 ha.elevationThisYear]
  exact ⟨year, hpick (Elevation.ofYear r), hpick (Elevation.sundayOfYear r), hle, hlt⟩

/-- The last start of the Lukan cycle is that of a year, and that of the next year is to come. -/
theorem exists_lukanStartLast (h : ofDate r date = .ok d) :
    ∃ year, d.lukanStartLast = Elevation.mondayOfYear r year ∧
      Elevation.mondayOfYear r year ≤ date ∧ date < Elevation.mondayOfYear r (year + 1) := by
  obtain ⟨hyear, a, hanchors, rfl⟩ := exists_anchors h
  have ha := Anchors.areOfYear_of_ofYear hyear hanchors
  obtain ⟨hbefore, hafter⟩ := Elevation.sundayOfYear_lt_and_lt r date
  have hbefore' : Elevation.mondayOfYear r ((r.label date).year - 1) ≤ date :=
    Int.add_one_le_of_lt hbefore
  have hafter' : date < Elevation.mondayOfYear r ((r.label date).year + 1) :=
    Int.lt_add_one_of_le (Int.le_of_lt hafter)
  obtain ⟨year, -, hle, hlt, hpick⟩ := CivilDate.exists_year_of_pick hbefore' hafter'
  have hstart : (ofAnchors r date a).lukanStartLast =
      if date < Elevation.sundayAfter a.elevationThisYear + (1 : Int) then
        Elevation.sundayAfter a.elevationLastYear + (1 : Int)
      else Elevation.sundayAfter a.elevationThisYear + (1 : Int) := rfl
  rw [hstart, Elevation.label_eq_iff.1 ha.elevationLastYear,
    Elevation.label_eq_iff.1 ha.elevationThisYear]
  exact ⟨year, hpick (Elevation.mondayOfYear r), hle, hlt⟩

theorem isGreatest_sundayAfterElevationLast (h : ofDate r date = .ok d) :
    IsGreatest {sunday | sunday ∈ Elevation.sundays r ∧ sunday ≤ date}
      d.sundayAfterElevationLast := by
  obtain ⟨year, -, hsunday, hle, hlt⟩ := exists_sundayAfterElevationLast h
  rw [hsunday, Elevation.sundays_eq_range]
  exact CivilDate.isGreatest_of_between Elevation.sundayOfYear_le hle hlt

theorem isGreatest_lukanStartLast (h : ofDate r date = .ok d) :
    IsGreatest {monday | monday ∈ Elevation.mondays r ∧ monday ≤ date} d.lukanStartLast := by
  obtain ⟨year, hmonday, hle, hlt⟩ := exists_lukanStartLast h
  rw [hmonday, Elevation.mondays_eq_range]
  exact CivilDate.isGreatest_of_between Elevation.mondayOfYear_le hle hlt

theorem daysSinceLukanStart_bounds (h : ofDate r date = .ok d) :
    1 ≤ d.daysSinceLukanStart ∧ d.daysSinceLukanStart ≤ 371 := by
  obtain ⟨year, hmonday, hle, hlt⟩ := exists_lukanStartLast h
  have hgap := Elevation.dayNumber_sundayOfYear_succ r year
  rw [CivilDate.le_iff, Elevation.mondayOfYear, CivilDate.dayNumber_add] at hle
  rw [CivilDate.lt_iff, Elevation.mondayOfYear, CivilDate.dayNumber_add] at hlt
  rw [daysSinceLukanStart_eq h, hmonday, CivilDate.sub_eq, Elevation.mondayOfYear,
    CivilDate.dayNumber_add]
  omega

/-- On the Sunday itself the last cycle ends, and from the day after it on the two counts agree. -/
theorem daysSinceLukanStart_of_not_mem_sundays (h : ofDate r date = .ok d)
    (hdate : date ∉ Elevation.sundays r) :
    d.daysSinceLukanStart = d.daysSinceSundayAfterElevation := by
  obtain ⟨year, hmonday, hle, hlt⟩ := exists_lukanStartLast h
  obtain ⟨year', -, hsunday, hle', hlt'⟩ := exists_sundayAfterElevationLast h
  have hmem : Elevation.sundayOfYear r year' ∈ Elevation.sundays r := by
    rw [Elevation.sundays_eq_range]
    exact ⟨year', rfl⟩
  have hpast : Elevation.mondayOfYear r year' ≤ date :=
    Int.add_one_le_of_lt (CivilDate.lt_of_mem_of_not_mem hle' hmem hdate)
  obtain rfl : year' = year := CivilDate.year_eq_of_between Elevation.mondayOfYear_le hpast
    (Int.lt_add_one_of_le (Int.le_of_lt hlt')) hle hlt
  rw [daysSinceLukanStart_eq h, daysSinceSundayAfterElevation_eq h, hmonday, hsunday,
    Elevation.mondayOfYear, CivilDate.sub_add_eq, Int.sub_add_cancel]

theorem daysSinceSundayAfterElevation_of_mem_sundays (h : ofDate r date = .ok d)
    (hdate : date ∈ Elevation.sundays r) : d.daysSinceSundayAfterElevation = 0 := by
  obtain ⟨⟨-, hle⟩, hlatest⟩ := isGreatest_sundayAfterElevationLast h
  have heq : d.sundayAfterElevationLast = date :=
    CivilDate.le_antisymm hle (hlatest ⟨hdate, Int.le_refl _⟩)
  rw [daysSinceSundayAfterElevation_eq h, heq, CivilDate.sub_eq, Int.sub_self]

/-- The last day of a cycle ends its 52nd or 53rd week. -/
theorem daysSinceLukanStart_of_mem_sundays (h : ofDate r date = .ok d)
    (hdate : date ∈ Elevation.sundays r) :
    d.daysSinceLukanStart = 364 ∨ d.daysSinceLukanStart = 371 := by
  obtain ⟨year, hmonday, hle, hlt⟩ := exists_lukanStartLast h
  rw [Elevation.sundays_eq_range] at hdate
  obtain ⟨next, rfl⟩ := hdate
  have hgap := Elevation.dayNumber_sundayOfYear_succ r (next - 1)
  rw [Int.sub_add_cancel] at hgap
  obtain rfl : next - 1 = year := by
    refine CivilDate.year_eq_of_between Elevation.mondayOfYear_le ?_ ?_ hle hlt
    · rw [CivilDate.le_iff, Elevation.mondayOfYear, CivilDate.dayNumber_add]
      omega
    · rw [Int.sub_add_cancel]
      exact Int.lt_succ _
  rw [daysSinceLukanStart_eq h, hmonday, Elevation.mondayOfYear, CivilDate.sub_add_eq,
    Int.sub_add_cancel, CivilDate.sub_eq]
  omega

/-- On a Monday on which the cycle starts the count is 1. On other days it has gone up by one. -/
theorem daysSinceLukanStart_of_mem_mondays (h : ofDate r date = .ok d)
    (hdate : date ∈ Elevation.mondays r) : d.daysSinceLukanStart = 1 := by
  obtain ⟨⟨-, hle⟩, hlatest⟩ := isGreatest_lukanStartLast h
  have heq : d.lukanStartLast = date :=
    CivilDate.le_antisymm hle (hlatest ⟨hdate, Int.le_refl _⟩)
  rw [daysSinceLukanStart_eq h, heq, CivilDate.sub_eq, Int.sub_self]
  rfl

theorem daysSinceLukanStart_add_one (h : ofDate r date = .ok d)
    (h' : ofDate r (date + (1 : Int)) = .ok d')
    (hdate : date + (1 : Int) ∉ Elevation.mondays r) :
    d'.daysSinceLukanStart = d.daysSinceLukanStart + 1 := by
  have hlast := isGreatest_lukanStartLast h
  have hlast' := isGreatest_lukanStartLast h'
  have hbefore : d'.lukanStartLast ≤ date :=
    Int.le_of_lt_add_one (CivilDate.lt_of_mem_of_not_mem hlast'.1.2 hlast'.1.1 hdate)
  have heq : d'.lukanStartLast = d.lukanStartLast :=
    CivilDate.eq_of_isGreatest_of_le hlast' hlast hbefore
      (Int.le_trans hlast.1.2 date.le_add_one)
  rw [daysSinceLukanStart_eq h, daysSinceLukanStart_eq h', heq, CivilDate.sub_eq, CivilDate.sub_eq,
    CivilDate.dayNumber_add]
  omega

/-- The Lukan cycle of a date starts on the latest Monday after a Sunday after the Elevation of the
Cross, of all years. The days are counted from 1 to 364 or 371, one by one, and start again at 1 on
such a Monday only. Between the Sundays the count from the last of them is the same. -/
theorem lukanCycle_divides_days (h : ofDate r date = .ok d) :
    IsGreatest {sunday | sunday ∈ Elevation.sundays r ∧ sunday ≤ date}
        d.sundayAfterElevationLast ∧
      (∃ year, r.label d.elevationLast = ⟨year, 9, 14⟩) ∧
      d.sundayAfterElevationLast.IsFirstSundayAfter d.elevationLast ∧
      IsGreatest {monday | monday ∈ Elevation.mondays r ∧ monday ≤ date} d.lukanStartLast ∧
      d.lukanStartLast.weekday = .monday ∧
      1 ≤ d.daysSinceLukanStart ∧ d.daysSinceLukanStart ≤ 371 ∧
      (date ∈ Elevation.sundays r → d.daysSinceSundayAfterElevation = 0) ∧
      (date ∉ Elevation.sundays r → d.daysSinceLukanStart = d.daysSinceSundayAfterElevation) ∧
      ∀ d', ofDate r (date + (1 : Int)) = .ok d' →
        (date + (1 : Int) ∈ Elevation.mondays r →
          d'.daysSinceLukanStart = 1 ∧
            (d.daysSinceLukanStart = 364 ∨ d.daysSinceLukanStart = 371)) ∧
        (date + (1 : Int) ∉ Elevation.mondays r →
          d'.daysSinceLukanStart = d.daysSinceLukanStart + 1) := by
  obtain ⟨year, helevation, hsunday, -⟩ := exists_sundayAfterElevationLast h
  obtain ⟨hlow, hhigh⟩ := daysSinceLukanStart_bounds h
  refine ⟨isGreatest_sundayAfterElevationLast h, ⟨year, Elevation.label_eq_iff.2 helevation⟩, ?_,
    isGreatest_lukanStartLast h, ?_, hlow, hhigh, daysSinceSundayAfterElevation_of_mem_sundays h,
    daysSinceLukanStart_of_not_mem_sundays h, fun d' h' => ⟨?_, daysSinceLukanStart_add_one h h'⟩⟩
  · rw [hsunday, helevation]
    exact Elevation.isFirstSundayAfter_sundayAfter _
  · obtain ⟨start, hmonday, -⟩ := exists_lukanStartLast h
    rw [hmonday, CivilDate.weekday_eq_monday_iff, Elevation.mondayOfYear, CivilDate.dayNumber_add,
      Elevation.dayNumber_sundayOfYear]
    omega
  · intro hmonday
    exact ⟨daysSinceLukanStart_of_mem_mondays h' hmonday,
      daysSinceLukanStart_of_mem_sundays h (Elevation.add_one_mem_mondays_iff.1 hmonday)⟩

/-- In 2020 of the Julian reckoning the Elevation is a Sunday itself, and the Sunday after it, 4
October, ends a cycle of 53 weeks. -/
theorem lukanCycle_divides_days_longYear :
    ∃ d d', ofDate .julian ⟨737702⟩ = .ok d ∧ ofDate .julian ⟨737703⟩ = .ok d' ∧
      d.elevationLast.weekday = .sunday ∧ d.daysSinceSundayAfterElevation = 0 ∧
      d.daysSinceLukanStart = 371 ∧ d'.daysSinceLukanStart = 1 := by
  obtain ⟨d, hd⟩ := exists_ofDate_eq_ok_iff.2
    (show IsLiturgicalYear (Reckoning.julian.label ⟨737702⟩).year by decide)
  obtain ⟨d', hd'⟩ := exists_ofDate_eq_ok_iff.2
    (show IsLiturgicalYear (Reckoning.julian.label ⟨737703⟩).year by decide)
  have hsunday : (⟨737702⟩ : CivilDate) ∈ Elevation.sundays .julian := by
    rw [Elevation.sundays_eq_range]
    exact ⟨2020, rfl⟩
  obtain ⟨-, -, -, -, -, -, -, hcount, -, hnext⟩ := lukanCycle_divides_days hd
  obtain ⟨hrestart, -⟩ := (hnext d' hd').1 (Elevation.add_one_mem_mondays_iff.2 hsunday)
  refine ⟨d, d', hd, hd', ?_, hcount hsunday, ?_, hrestart⟩
  · cases hd
    rfl
  · cases hd
    rfl

end OfDate

end LiturgicalDay

end Typikon
