import Typikon.Proofs.Calendar.Anchors
import Typikon.Proofs.Stored.Calendar

/-!
The anchors of a liturgical day. Those that are picked from this year and the years beside it are
the nearest ones among the Paschas of all years, in whichever of the two reckonings' years the date
lies.
-/

namespace Typikon

namespace LiturgicalDay

/-- The anchors of a liturgical day among the Paschas of all years, and the days of the week on
which feasts and seasons that hang on Pascha begin. -/
structure IsAnchored (d : LiturgicalDay) : Prop where
  paschaLast : IsGreatest {pascha | pascha ∈ Pascha.all ∧ pascha ≤ d.date} d.paschaLast
  paschaNext : IsLeast {pascha | pascha ∈ Pascha.all ∧ d.date < pascha} d.paschaNext
  consecutive : ∃ year, ∀ r,
    Pascha.date r year = .ok d.paschaLast ∧ Pascha.date r (year + 1) = .ok d.paschaNext
  triodionStartLast :
    IsGreatest {start | (∃ pascha ∈ Pascha.all, start = pascha - (70 : Int)) ∧ start ≤ d.date}
      d.triodionStartLast
  sundays : ∀ day ∈ [d.triodionStartLastYear, d.triodionStartThisYear, d.triodionStartNextYear,
    d.triodionStartLast, d.palmSunday, d.palmSundayNext, d.thomasSunday, d.pentecost,
    d.allSaintsLastYear, d.allSaintsThisYear], day.weekday = .sunday
  greatLentStart : d.greatLentStart.weekday = .monday
  lazarusSaturdayNext : d.lazarusSaturdayNext.weekday = .saturday

variable {r : Reckoning} {date : CivilDate} {a : Anchors}

/-- The last Pascha and the next one are those of two years that follow one another, and enclose the
date. -/
theorem exists_paschaLast_paschaNext (hyear : IsLiturgicalYear (r.label date).year)
    (ha : a.AreOfYear r (r.label date).year) :
    ∃ year, 1582 ≤ year ∧ year ≤ 9999 ∧
      (ofAnchors r date a).paschaLast = Pascha.ofYear year ∧
      (ofAnchors r date a).paschaNext = Pascha.ofYear (year + 1) ∧
      Pascha.ofYear year ≤ date ∧ date < Pascha.ofYear (year + 1) := by
  obtain ⟨hbefore, hafter⟩ := Pascha.lt_and_lt_of_isLiturgicalYear hyear
  obtain ⟨hlow, hhigh⟩ := hyear
  rw [CivilDate.lt_iff, CivilDate.dayNumber_add] at hbefore hafter
  have hlast : (ofAnchors r date a).paschaLast =
      if a.paschaThisYear ≤ date then a.paschaThisYear else a.paschaLastYear := rfl
  have hnext : (ofAnchors r date a).paschaNext =
      if date < a.paschaThisYear then a.paschaThisYear else a.paschaNextYear := rfl
  rw [hlast, hnext, ha.paschaLastYear, ha.paschaThisYear, ha.paschaNextYear]
  by_cases hpascha : Pascha.ofYear (r.label date).year ≤ date
  · have hnot : ¬date < Pascha.ofYear (r.label date).year := Int.not_lt.2 hpascha
    rw [if_pos hpascha, if_neg hnot]
    exact ⟨_, by omega, by omega, rfl, rfl, hpascha, CivilDate.lt_iff.2 (by omega)⟩
  · have hlt : date < Pascha.ofYear (r.label date).year := Int.not_le.1 hpascha
    rw [if_neg hpascha, if_pos hlt]
    have hyears : (r.label date).year = (r.label date).year - 1 + 1 := by omega
    exact ⟨_, by omega, by omega, rfl, by rw [← hyears], CivilDate.le_iff.2 (by omega),
      by rw [← hyears]; exact hlt⟩

/-- The last start of the Triodion is that of a year, and the one of the next year is to come. -/
theorem exists_triodionStartLast (hyear : IsLiturgicalYear (r.label date).year)
    (ha : a.AreOfYear r (r.label date).year) :
    ∃ year, 0 ≤ year ∧ (ofAnchors r date a).triodionStartLast = Pascha.ofYear year - (70 : Int) ∧
      Pascha.ofYear year - (70 : Int) ≤ date ∧ date < Pascha.ofYear (year + 1) - (70 : Int) := by
  obtain ⟨hbefore, hafter⟩ := Pascha.lt_and_lt_of_isLiturgicalYear hyear
  obtain ⟨hlow, hhigh⟩ := hyear
  rw [CivilDate.lt_iff, CivilDate.dayNumber_add] at hbefore
  have hlast : (ofAnchors r date a).triodionStartLast =
      if date < a.paschaThisYear - (70 : Int) then a.paschaLastYear - (70 : Int)
      else a.paschaThisYear - (70 : Int) := rfl
  rw [hlast, ha.paschaLastYear, ha.paschaThisYear]
  by_cases htriodion : date < Pascha.ofYear (r.label date).year - (70 : Int)
  · rw [if_pos htriodion]
    have hyears : (r.label date).year = (r.label date).year - 1 + 1 := by omega
    refine ⟨_, by omega, rfl, ?_, by rw [← hyears]; exact htriodion⟩
    rw [CivilDate.le_iff, CivilDate.dayNumber_sub]
    omega
  · rw [if_neg htriodion]
    exact ⟨_, by omega, rfl, Int.not_lt.1 htriodion, CivilDate.lt_sub_iff.2 hafter⟩

/-- Every date of a liturgical day is counted from an anchor, and not far. -/
theorem anchors_subset_reach (r : Reckoning) (date : CivilDate) (a : Anchors) :
    ∀ day ∈ (ofAnchors r date a).anchors, day ∈ a.reach 78 := by
  have hlast : a.paschaLastYear ∈ a.reach 0 :=
    Anchors.mem_reach_of_mem_dates (by simp [Anchors.dates])
  have hthis : a.paschaThisYear ∈ a.reach 0 :=
    Anchors.mem_reach_of_mem_dates (by simp [Anchors.dates])
  have hnext : a.paschaNextYear ∈ a.reach 0 :=
    Anchors.mem_reach_of_mem_dates (by simp [Anchors.dates])
  have helevation : a.elevationThisYear ∈ a.reach 0 :=
    Anchors.mem_reach_of_mem_dates (by simp [Anchors.dates])
  have helevation' : a.elevationLastYear ∈ a.reach 0 :=
    Anchors.mem_reach_of_mem_dates (by simp [Anchors.dates])
  have hpaschaLast : (ofAnchors r date a).paschaLast ∈ a.reach 0 :=
    Anchors.mem_reach_ite hthis hlast
  have hpaschaNext : (ofAnchors r date a).paschaNext ∈ a.reach 0 :=
    Anchors.mem_reach_ite hthis hnext
  have hsunday : Elevation.sundayAfter a.elevationThisYear ∈ a.reach 7 :=
    Anchors.sundayAfter_mem_reach helevation
  have hsunday' : Elevation.sundayAfter a.elevationLastYear ∈ a.reach 7 :=
    Anchors.sundayAfter_mem_reach helevation'
  have hhere {day : CivilDate} {n : Int} (h : day ∈ a.reach n) (hn : n ≤ 78) : day ∈ a.reach 78 :=
    Anchors.reach_subset hn h
  have hafter {day : CivilDate} {n : Int} (h : day ∈ a.reach 0) (hlow : -78 ≤ n) (hhigh : n ≤ 78) :
      day + n ∈ a.reach 78 :=
    Anchors.add_mem_reach h (by omega) (by omega)
  have hbefore {day : CivilDate} {n : Int} (h : day ∈ a.reach 0) (hlow : -78 ≤ -n)
      (hhigh : -n ≤ 78) : day - n ∈ a.reach 78 :=
    Anchors.sub_mem_reach h (by omega) (by omega)
  have htriodion : (ofAnchors r date a).triodionStartLast ∈ a.reach 78 :=
    Anchors.mem_reach_ite (hbefore hlast (by decide) (by decide))
      (hbefore hthis (by decide) (by decide))
  have hlukan : (ofAnchors r date a).lukanStartLast ∈ a.reach 78 :=
    Anchors.mem_reach_ite (Anchors.add_mem_reach hsunday' (by decide) (by decide))
      (Anchors.add_mem_reach hsunday (by decide) (by decide))
  simp only [anchors, List.forall_mem_cons, List.not_mem_nil, false_imp_iff, implies_true, and_true]
  refine ⟨hhere hlast ?_, hhere hthis ?_, hhere hpaschaLast ?_, hhere hpaschaNext ?_,
    hbefore hlast ?_ ?_, hbefore hthis ?_ ?_, hbefore hpaschaNext ?_ ?_, htriodion,
    hbefore hthis ?_ ?_, hafter hthis ?_ ?_, hafter hlast ?_ ?_, hafter hthis ?_ ?_,
    hbefore hthis ?_ ?_, hafter hpaschaLast ?_ ?_, hbefore hpaschaNext ?_ ?_,
    hbefore hpaschaNext ?_ ?_, hhere (Anchors.mem_reach_ite helevation' helevation) ?_,
    hhere (Anchors.mem_reach_ite hsunday' hsunday) ?_, hlukan⟩
  all_goals decide

theorem isAnchored_ofAnchors (hyear : IsLiturgicalYear (r.label date).year)
    (ha : a.AreOfYear r (r.label date).year) : (ofAnchors r date a).IsAnchored := by
  obtain ⟨year, hlow, hhigh, hlast, hnext, hle, hlt⟩ := exists_paschaLast_paschaNext hyear ha
  obtain ⟨start, hstart, htriodion, hle', hlt'⟩ := exists_triodionStartLast hyear ha
  have hday : (ofAnchors r date a).date = date := rfl
  have hweek {pascha : CivilDate} {y : Int} (h : pascha = Pascha.ofYear y) :
      pascha.dayNumber % 7 = 0 :=
    h ▸ Pascha.dayNumber_emod_seven y
  have hafter {pascha : CivilDate} {y n : Int} (h : pascha = Pascha.ofYear y) (hn : n % 7 = 0) :
      (pascha + n).weekday = .sunday := by
    have hsunday := hweek h
    rw [CivilDate.weekday_eq_sunday_iff, CivilDate.dayNumber_add]
    omega
  have hbefore {pascha : CivilDate} {y n : Int} (h : pascha = Pascha.ofYear y) (hn : n % 7 = 0) :
      (pascha - n).weekday = .sunday :=
    hafter h (by omega)
  refine ⟨?_, ?_, ⟨year, fun r' => ?_⟩, ?_, ?_, ?_, ?_⟩
  · rw [hday, hlast]
    exact Pascha.isGreatest_ofYear (by omega) hle hlt
  · rw [hday, hnext]
    exact Pascha.isLeast_ofYear (by omega) hle hlt
  · rw [hlast, hnext]
    exact ⟨Pascha.date_eq_ok_of_year r' (by omega) (by omega),
      Pascha.date_eq_ok_of_year r' (by omega) (by omega)⟩
  · rw [hday, htriodion]
    exact Pascha.isGreatest_ofYear_sub hstart hle' hlt'
  · simp only [List.forall_mem_cons, List.not_mem_nil, false_imp_iff, implies_true, and_true]
    refine ⟨hbefore ha.paschaLastYear ?_, hbefore ha.paschaThisYear ?_, hbefore hnext ?_,
      htriodion ▸ hbefore rfl ?_, hbefore ha.paschaThisYear ?_, hbefore hnext ?_, hafter hlast ?_,
      hafter ha.paschaThisYear ?_, hafter ha.paschaLastYear ?_, hafter ha.paschaThisYear ?_⟩
    all_goals decide
  · have hsunday := hweek ha.paschaThisYear
    rw [CivilDate.weekday_eq_monday_iff]
    change (a.paschaThisYear.dayNumber - 48) % 7 = 1
    omega
  · have hsunday := hweek hnext
    rw [CivilDate.weekday_eq_saturday_iff]
    change ((ofAnchors r date a).paschaNext.dayNumber - 8) % 7 = 6
    omega

theorem ofDate_of_isLiturgicalYear (h : IsLiturgicalYear (r.label date).year) :
    ∃ a, Anchors.ofYear r (r.label date).year = .ok a ∧ a.AreOfYear r (r.label date).year ∧
      ofDate r date = .ok (ofAnchors r date a) := by
  obtain ⟨a, hanchors, ha⟩ := Anchors.exists_ofYear_eq_ok r h
  refine ⟨a, hanchors, ha, ?_⟩
  unfold ofDate
  dsimp only
  rw [if_pos h, hanchors]
  rfl

theorem ofDate_of_not_isLiturgicalYear (h : ¬IsLiturgicalYear (r.label date).year) :
    ofDate r date = .error (.yearOutOfRange (r.label date).year) :=
  if_neg h

theorem exists_ofDate_eq_ok_iff :
    (∃ d, ofDate r date = .ok d) ↔ IsLiturgicalYear (r.label date).year := by
  refine ⟨fun ⟨d, hd⟩ => (exists_anchors hd).1, fun h => ?_⟩
  obtain ⟨a, -, -, hd⟩ := ofDate_of_isLiturgicalYear h
  exact ⟨_, hd⟩

/-- The Elevation is that of the year in which the Sunday after it falls, and mid-January is that of
the year in which the Triodion starts. -/
structure IsAnchoredInYears (d : LiturgicalDay) (r : Reckoning) : Prop where
  elevationLast : Elevation.date r (r.label d.sundayAfterElevationLast).year = .ok d.elevationLast
  midJanuary : ∃ midJanuary,
    r.toCivil ⟨(r.label d.triodionStartThisYear).year, 1, 15⟩ = .ok midJanuary ∧
      d.daysUntilTriodionStart = d.triodionStartThisYear - midJanuary

theorem isAnchoredInYears_ofAnchors (hyear : IsLiturgicalYear (r.label date).year)
    (ha : a.AreOfYear r (r.label date).year) : (ofAnchors r date a).IsAnchoredInYears r := by
  have hfound {anchor : CivilDate} (hanchor : anchor ∈ a.dates) :
      r.toCivil (r.label anchor) = .ok anchor :=
    ha.toCivil_label_eq_ok hyear hanchor
  constructor
  · have hsunday : (ofAnchors r date a).sundayAfterElevationLast =
        if date < Elevation.sundayAfter a.elevationThisYear then
          Elevation.sundayAfter a.elevationLastYear
        else Elevation.sundayAfter a.elevationThisYear := rfl
    have helevation : (ofAnchors r date a).elevationLast =
        if date < Elevation.sundayAfter a.elevationThisYear then a.elevationLastYear
        else a.elevationThisYear := rfl
    rw [hsunday, helevation, Elevation.date]
    by_cases hlast : date < Elevation.sundayAfter a.elevationThisYear
    · rw [if_pos hlast, if_pos hlast, Elevation.year_label_sundayAfter ha.elevationLastYear,
        ← ha.elevationLastYear]
      exact hfound (by simp [Anchors.dates])
    · rw [if_neg hlast, if_neg hlast, Elevation.year_label_sundayAfter ha.elevationThisYear,
        ← ha.elevationThisYear]
      exact hfound (by simp [Anchors.dates])
  · have hstart : (ofAnchors r date a).triodionStartThisYear =
        Pascha.ofYear (r.label date).year - (70 : Int) := by
      change a.paschaThisYear - (70 : Int) = _
      rw [ha.paschaThisYear]
    refine ⟨a.midJanuary, ?_, rfl⟩
    rw [hstart, Pascha.year_label_triodionStart r hyear, ← ha.midJanuary]
    exact hfound (by simp [Anchors.dates])

/-- A date has a liturgical day just if its year is a liturgical one, and else the year is refused.
All its anchors exist, whatever is counted from them is supported, and the last and next Pascha and
the last start of the Triodion are the nearest ones of all years. -/
theorem exists_ofDate_iff_and_isAnchored (r : Reckoning) (date : CivilDate) :
    let year := (r.label date).year
    ((∃ d, ofDate r date = .ok d) ↔ 1583 ≤ year ∧ year ≤ 9999) ∧
      (¬(1583 ≤ year ∧ year ≤ 9999) → ofDate r date = .error (.yearOutOfRange year)) ∧
      ∀ d, ofDate r date = .ok d →
        (∃ a, Anchors.ofYear r year = .ok a ∧ d = ofAnchors r date a ∧
          ∀ day ∈ a.reach 1000, day.Supported) ∧
        (∀ day ∈ d.anchors, day.Supported) ∧ d.date = date ∧ d.IsAnchored ∧
        d.IsAnchoredInYears r := by
  refine ⟨exists_ofDate_eq_ok_iff, ofDate_of_not_isLiturgicalYear, ?_⟩
  intro d hd
  obtain ⟨hyear, a, hanchors, rfl⟩ := exists_anchors hd
  have ha := Anchors.areOfYear_of_ofYear hyear hanchors
  have hsupported : ∀ day ∈ a.reach 1000, day.Supported := fun day hday =>
    ha.supported_of_mem_reach hyear hday
  refine ⟨⟨a, hanchors, rfl, hsupported⟩, ?_, rfl, isAnchored_ofAnchors hyear ha,
    isAnchoredInYears_ofAnchors hyear ha⟩
  intro day hday
  exact hsupported day (Anchors.reach_subset (by decide) (anchors_subset_reach r date a day hday))

/-- On 31 December 9999 of the Julian calendar the next Pascha is that of the year 10000. -/
theorem exists_ofDate_iff_and_isAnchored_lastDay :
    Reckoning.julian.label ⟨3652132⟩ = ⟨9999, 12, 31⟩ ∧
      ∃ d, ofDate .julian ⟨3652132⟩ = .ok d ∧ d.IsAnchored ∧
        Pascha.date .julian 10000 = .ok d.paschaNext := by
  have hlabel : Reckoning.julian.label ⟨3652132⟩ = ⟨9999, 12, 31⟩ := rfl
  obtain ⟨hexists, -, hanchored⟩ := exists_ofDate_iff_and_isAnchored .julian ⟨3652132⟩
  obtain ⟨d, hd⟩ := hexists.2 (by decide)
  obtain ⟨-, -, -, hd', -⟩ := hanchored d hd
  refine ⟨hlabel, d, hd, hd', ?_⟩
  cases hd
  rfl

end LiturgicalDay

end Typikon
