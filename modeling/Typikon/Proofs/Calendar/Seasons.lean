import Typikon.Proofs.Calendar.NearestAnchors

/-!
The seasons of a liturgical day. They are found from this year's Pascha alone, and yet are the
seventy days up to the next Pascha of all years and the eight weeks from the last one, and their
days are counted through Pascha, which is the 71st, in whichever reckoning's year it lies.
-/

namespace Typikon

namespace LiturgicalDay

/-- The seasons of a day and the counts of their days, told by the last Pascha and the next one. -/
structure KeepsSeasons (d : LiturgicalDay) (last next : CivilDate) : Prop where
  isPentecostarion_iff : d.isPentecostarion ↔ last ≤ d.date ∧ d.date ≤ last + (56 : Int)
  isTriodion_iff : d.isTriodion ↔ next - (70 : Int) ≤ d.date ∧ d.date < next
  not_both : ¬(d.isTriodion ∧ d.isPentecostarion)
  dayOfTriodion : d.isTriodion →
    d.dayOfSeason = d.date - (next - (70 : Int)) + 1 ∧ 1 ≤ d.dayOfSeason ∧ d.dayOfSeason ≤ 70
  dayOfPentecostarion : d.isPentecostarion →
    d.dayOfSeason = d.date - last + 71 ∧ 71 ≤ d.dayOfSeason ∧ d.dayOfSeason ≤ 127
  dayOfNeither : ¬d.isTriodion → ¬d.isPentecostarion → d.dayOfSeason = 0
  daysSinceTriodionStart : d.isTriodion ∨ d.isPentecostarion →
    d.dayOfSeason = d.daysSinceTriodionStart
  pentecostarionDay : d.pentecostarionDay =
    .ok (if d.isPentecostarion then some (d.date - last + 1 : Int) else none)

/-- The weeks of Great Lent, from Monday to Sunday. The seventh is Holy Week, which Pascha is no
longer part of. -/
structure KeepsLent (d : LiturgicalDay) : Prop where
  weekOfLent_eq_some_iff : ∀ week : Nat, d.weekOfLent? = some week ↔
    d.greatLentStart ≤ d.date ∧ d.date < d.paschaThisYear ∧
      (week : Int) = (d.date - d.greatLentStart) / 7 + 1
  mondayToSunday : ∀ week : Nat, d.weekOfLent? = some week ↔
    1 ≤ week ∧ week ≤ 7 ∧ d.date < d.paschaThisYear ∧
      ∃ monday : CivilDate, monday.weekday = .monday ∧
        monday = d.greatLentStart + (7 * ((week : Int) - 1)) ∧
        monday ≤ d.date ∧ d.date ≤ monday + (6 : Int)
  holyWeek : d.weekOfLent? = some 7 ↔
    d.paschaThisYear - (6 : Int) ≤ d.date ∧ d.date < d.paschaThisYear

section OfAnchors

variable {r : Reckoning} {date : CivilDate} {a : Anchors}

theorem date_ofAnchors : (ofAnchors r date a).date = date := rfl

/-! ### The seasons by this year's Pascha -/

theorem isTriodion_ofAnchors : (ofAnchors r date a).isTriodion ↔
    a.paschaThisYear.dayNumber - 70 ≤ date.dayNumber ∧
      date.dayNumber < a.paschaThisYear.dayNumber := by
  simp [ofAnchors, CivilDate.le_iff, CivilDate.lt_iff]

theorem isPentecostarion_ofAnchors : (ofAnchors r date a).isPentecostarion ↔
    a.paschaThisYear.dayNumber ≤ date.dayNumber ∧
      date.dayNumber ≤ a.paschaThisYear.dayNumber + 56 := by
  simp [ofAnchors, CivilDate.le_iff]

theorem dayOfSeason_ofAnchors (h : (ofAnchors r date a).isTriodion ∨
    (ofAnchors r date a).isPentecostarion) :
    (ofAnchors r date a).dayOfSeason =
      date.dayNumber - a.paschaThisYear.dayNumber + 71 := by
  change (if (ofAnchors r date a).isTriodion || (ofAnchors r date a).isPentecostarion then
    (date - (a.paschaThisYear - (70 : Int)) + 1 : Int) else 0) = _
  rw [if_pos (Bool.or_eq_true_iff.2 h), CivilDate.sub_sub_eq, CivilDate.sub_eq]
  omega

theorem dayOfSeason_ofAnchors_of_not (h : ¬(ofAnchors r date a).isTriodion)
    (h' : ¬(ofAnchors r date a).isPentecostarion) : (ofAnchors r date a).dayOfSeason = 0 :=
  if_neg fun hseason => (Bool.or_eq_true_iff.1 hseason).elim h h'

/-- Unless it was forced, the day of the season is one that the days from Pascha can be counted
from. -/
theorem pentecostarionDay_ofAnchors : (ofAnchors r date a).pentecostarionDay =
    .ok (if (ofAnchors r date a).isPentecostarion then
      some (date.dayNumber - a.paschaThisYear.dayNumber + 1)
    else none) := by
  rw [pentecostarionDay]
  by_cases h : (ofAnchors r date a).isPentecostarion
  · have hcount : (ofAnchors r date a).dayOfSeason - 70 =
        date.dayNumber - a.paschaThisYear.dayNumber + 1 := by
      rw [dayOfSeason_ofAnchors (.inr h)]
      omega
    obtain ⟨hstart, -⟩ := isPentecostarion_ofAnchors.1 h
    rw [if_neg (not_not_intro h), if_pos h, hcount, if_pos (by omega)]
  · rw [if_pos h, if_neg h]

/-- From this year's start of the Triodion on, the days are counted from it. Those that are still
counted from last year's are many. -/
theorem daysSinceTriodionStart_cases (hyear : IsLiturgicalYear (r.label date).year)
    (ha : a.AreOfYear r (r.label date).year) :
    date.dayNumber < a.paschaThisYear.dayNumber - 70 ∧
        240 < (ofAnchors r date a).daysSinceTriodionStart ∨
      a.paschaThisYear.dayNumber - 70 ≤ date.dayNumber ∧
        (ofAnchors r date a).daysSinceTriodionStart =
          date.dayNumber - a.paschaThisYear.dayNumber + 71 := by
  obtain ⟨hbefore, -⟩ := Pascha.lt_and_lt_of_isLiturgicalYear hyear
  rw [← ha.paschaLastYear, CivilDate.lt_iff, CivilDate.dayNumber_add] at hbefore
  have hdays : (ofAnchors r date a).daysSinceTriodionStart =
      (date - (if date < a.paschaThisYear - (70 : Int) then a.paschaLastYear - (70 : Int)
        else a.paschaThisYear - (70 : Int)) + 1 : Int) := rfl
  by_cases hstarted : date < a.paschaThisYear - (70 : Int)
  · rw [if_pos hstarted, CivilDate.sub_sub_eq, CivilDate.sub_eq] at hdays
    rw [CivilDate.lt_iff, CivilDate.dayNumber_sub] at hstarted
    omega
  · rw [if_neg hstarted, CivilDate.sub_sub_eq, CivilDate.sub_eq] at hdays
    rw [CivilDate.lt_iff, CivilDate.dayNumber_sub] at hstarted
    omega

/-! ### The seasons by the nearest Paschas -/

theorem isPentecostarion_iff_paschaLast (hyear : IsLiturgicalYear (r.label date).year)
    (ha : a.AreOfYear r (r.label date).year) :
    (ofAnchors r date a).isPentecostarion ↔ (ofAnchors r date a).paschaLast ≤ date ∧
      date ≤ (ofAnchors r date a).paschaLast + (56 : Int) := by
  obtain ⟨hbefore, -⟩ := Pascha.lt_and_lt_of_isLiturgicalYear hyear
  rw [← ha.paschaLastYear, CivilDate.lt_iff, CivilDate.dayNumber_add] at hbefore
  have hlast : (ofAnchors r date a).paschaLast =
      if a.paschaThisYear ≤ date then a.paschaThisYear else a.paschaLastYear := rfl
  rw [isPentecostarion_ofAnchors, hlast]
  by_cases hpascha : a.paschaThisYear ≤ date
  · rw [if_pos hpascha]
    exact Iff.rfl
  · rw [if_neg hpascha]
    refine iff_of_false (fun h => hpascha h.1) fun h => ?_
    have hend := h.2
    rw [CivilDate.le_iff, CivilDate.dayNumber_add] at hend
    omega

theorem isTriodion_iff_paschaNext (hyear : IsLiturgicalYear (r.label date).year)
    (ha : a.AreOfYear r (r.label date).year) :
    (ofAnchors r date a).isTriodion ↔ (ofAnchors r date a).paschaNext - (70 : Int) ≤ date ∧
      date < (ofAnchors r date a).paschaNext := by
  obtain ⟨-, hafter⟩ := Pascha.lt_and_lt_of_isLiturgicalYear hyear
  rw [← ha.paschaNextYear, CivilDate.lt_iff, CivilDate.dayNumber_add] at hafter
  have hnext : (ofAnchors r date a).paschaNext =
      if date < a.paschaThisYear then a.paschaThisYear else a.paschaNextYear := rfl
  rw [isTriodion_ofAnchors, hnext]
  by_cases hpascha : date < a.paschaThisYear
  · rw [if_pos hpascha]
    exact Iff.rfl
  · rw [if_neg hpascha]
    refine iff_of_false (fun h => hpascha h.2) fun h => ?_
    have hstart := h.1
    rw [CivilDate.le_iff, CivilDate.dayNumber_sub] at hstart
    omega

theorem paschaNext_of_isTriodion (h : (ofAnchors r date a).isTriodion) :
    (ofAnchors r date a).paschaNext = a.paschaThisYear :=
  if_pos (isTriodion_ofAnchors.1 h).2

theorem paschaLast_of_isPentecostarion (h : (ofAnchors r date a).isPentecostarion) :
    (ofAnchors r date a).paschaLast = a.paschaThisYear :=
  if_pos (isPentecostarion_ofAnchors.1 h).1

theorem keepsSeasons_ofAnchors (hyear : IsLiturgicalYear (r.label date).year)
    (ha : a.AreOfYear r (r.label date).year) :
    (ofAnchors r date a).KeepsSeasons (ofAnchors r date a).paschaLast
      (ofAnchors r date a).paschaNext := by
  refine ⟨isPentecostarion_iff_paschaLast hyear ha, isTriodion_iff_paschaNext hyear ha, ?_, ?_, ?_,
    dayOfSeason_ofAnchors_of_not, ?_, ?_⟩
  · rw [isTriodion_ofAnchors, isPentecostarion_ofAnchors]
    omega
  · intro h
    obtain ⟨hstart, hend⟩ := isTriodion_ofAnchors.1 h
    rw [dayOfSeason_ofAnchors (.inl h), paschaNext_of_isTriodion h, date_ofAnchors,
      CivilDate.sub_sub_eq, CivilDate.sub_eq]
    omega
  · intro h
    obtain ⟨hstart, hend⟩ := isPentecostarion_ofAnchors.1 h
    rw [dayOfSeason_ofAnchors (.inr h), paschaLast_of_isPentecostarion h, date_ofAnchors,
      CivilDate.sub_eq]
    omega
  · intro h
    rw [dayOfSeason_ofAnchors h]
    rw [isTriodion_ofAnchors, isPentecostarion_ofAnchors] at h
    rcases daysSinceTriodionStart_cases hyear ha with ⟨hbefore, -⟩ | ⟨-, hdays⟩
    · omega
    · exact hdays.symm
  · rw [pentecostarionDay_ofAnchors]
    split
    next h =>
      rw [paschaLast_of_isPentecostarion h, date_ofAnchors, CivilDate.sub_eq]
    · rfl

/-! ### Great Lent -/

theorem keepsLent_ofAnchors (hyear : IsLiturgicalYear (r.label date).year)
    (ha : a.AreOfYear r (r.label date).year) : (ofAnchors r date a).KeepsLent := by
  have hsunday : a.paschaThisYear.dayNumber % 7 = 0 :=
    ha.paschaThisYear ▸ Pascha.dayNumber_emod_seven _
  have hdays := daysSinceTriodionStart_cases hyear ha
  have hpascha : (ofAnchors r date a).paschaThisYear = a.paschaThisYear := rfl
  have hlent : (ofAnchors r date a).greatLentStart = a.paschaThisYear - (48 : Int) := rfl
  have hweek (week : Nat) : (ofAnchors r date a).weekOfLent? = some week ↔
      a.paschaThisYear.dayNumber - 48 ≤ date.dayNumber ∧
        date.dayNumber < a.paschaThisYear.dayNumber ∧
        (week : Int) = (date.dayNumber - (a.paschaThisYear.dayNumber - 48)) / 7 + 1 := by
    rw [weekOfLent?_eq_some_iff]
    omega
  refine ⟨fun week => hweek week, fun week => ?_, ?_⟩
  · rw [hweek, date_ofAnchors, hpascha, hlent]
    constructor
    · rintro ⟨hstart, hend, hcount⟩
      refine ⟨by omega, by omega, hend, _, ?_, rfl, ?_, ?_⟩
      · rw [CivilDate.weekday_eq_monday_iff, CivilDate.dayNumber_add, CivilDate.dayNumber_sub]
        omega
      · rw [CivilDate.le_iff, CivilDate.dayNumber_add, CivilDate.dayNumber_sub]
        omega
      · rw [CivilDate.le_iff, CivilDate.dayNumber_add, CivilDate.dayNumber_add,
          CivilDate.dayNumber_sub]
        omega
    · rintro ⟨hone, hseven, hend, monday, -, rfl, hstart, hstop⟩
      rw [CivilDate.lt_iff] at hend
      rw [CivilDate.le_iff, CivilDate.dayNumber_add, CivilDate.dayNumber_sub] at hstart
      rw [CivilDate.le_iff, CivilDate.dayNumber_add, CivilDate.dayNumber_add,
        CivilDate.dayNumber_sub] at hstop
      omega
  · rw [hweek, date_ofAnchors, hpascha, CivilDate.le_iff, CivilDate.lt_iff, CivilDate.dayNumber_sub]
    omega

end OfAnchors

section OfDate

variable {r r' : Reckoning} {date last next : CivilDate} {d d' : LiturgicalDay}

theorem KeepsSeasons.dayOfSeason_bounds (h : d.KeepsSeasons last next) :
    0 ≤ d.dayOfSeason ∧ d.dayOfSeason ≤ 127 := by
  by_cases htriodion : d.isTriodion
  · obtain ⟨-, hlow, hhigh⟩ := h.dayOfTriodion htriodion
    omega
  · by_cases hpentecostarion : d.isPentecostarion
    · obtain ⟨-, hlow, hhigh⟩ := h.dayOfPentecostarion hpentecostarion
      omega
    · rw [h.dayOfNeither htriodion hpentecostarion]
      decide

theorem KeepsSeasons.dayOfSeason_eq_iff (h : d.KeepsSeasons last next) :
    d.dayOfSeason = 71 ↔ d.date = last := by
  constructor
  · intro hday
    by_cases htriodion : d.isTriodion
    · obtain ⟨-, -, hbefore⟩ := h.dayOfTriodion htriodion
      omega
    · by_cases hpentecostarion : d.isPentecostarion
      · obtain ⟨hcount, -⟩ := h.dayOfPentecostarion hpentecostarion
        rw [CivilDate.sub_eq] at hcount
        exact CivilDate.eq_of_dayNumber_eq (by omega)
      · rw [h.dayOfNeither htriodion hpentecostarion] at hday
        cases hday
  · intro hdate
    have hpentecostarion : d.isPentecostarion := by
      rw [h.isPentecostarion_iff, hdate, CivilDate.le_iff, CivilDate.le_iff,
        CivilDate.dayNumber_add]
      omega
    rw [(h.dayOfPentecostarion hpentecostarion).1, hdate, CivilDate.sub_eq]
    omega

/-- The count goes through Pascha: it is 71 more than the days from it, which are negative in the
Triodion. -/
theorem KeepsSeasons.dayOfSeason_of_triodion (h : d.KeepsSeasons last next)
    (hstart : next - (70 : Int) ≤ d.date) (hend : d.date < next) :
    d.dayOfSeason = d.date - next + 71 := by
  rw [(h.dayOfTriodion (h.isTriodion_iff.2 ⟨hstart, hend⟩)).1, CivilDate.sub_sub_eq,
    CivilDate.sub_eq]
  omega

theorem KeepsSeasons.dayOfSeason_of_pentecostarion (h : d.KeepsSeasons last next)
    (hstart : last ≤ d.date) (hend : d.date ≤ last + (56 : Int)) :
    d.dayOfSeason = d.date - last + 71 :=
  (h.dayOfPentecostarion (h.isPentecostarion_iff.2 ⟨hstart, hend⟩)).1

/-- Before the next Pascha the day after is counted from the same Paschas. -/
theorem KeepsSeasons.dayOfSeason_add_one (h : d.KeepsSeasons last next)
    (h' : d'.KeepsSeasons last next) (hdate : d'.date = d.date + (1 : Int)) (hnext : d'.date < next)
    (hseason : d.isTriodion ∨ d.isPentecostarion ∧ d.dayOfSeason < 127) :
    d'.dayOfSeason = d.dayOfSeason + 1 := by
  have hday : d'.date.dayNumber = d.date.dayNumber + 1 := congrArg CivilDate.dayNumber hdate
  have hlater : d.date ≤ d'.date := hdate ▸ d.date.le_add_one
  rcases hseason with htriodion | ⟨hpentecostarion, hcount⟩
  · obtain ⟨hstart, hend⟩ := h.isTriodion_iff.1 htriodion
    rw [h.dayOfSeason_of_triodion hstart hend,
      h'.dayOfSeason_of_triodion (Int.le_trans hstart hlater) hnext, CivilDate.sub_eq,
      CivilDate.sub_eq]
    omega
  · obtain ⟨hstart, hend⟩ := h.isPentecostarion_iff.1 hpentecostarion
    rw [h.dayOfSeason_of_pentecostarion hstart hend, CivilDate.sub_eq] at hcount
    have hend' : d'.date ≤ last + (56 : Int) := by
      rw [CivilDate.le_iff, CivilDate.dayNumber_add]
      omega
    rw [h.dayOfSeason_of_pentecostarion hstart hend,
      h'.dayOfSeason_of_pentecostarion (Int.le_trans hstart hlater) hend', CivilDate.sub_eq,
      CivilDate.sub_eq]
    omega

/-- The day before the next Pascha is the last one of the Triodion. -/
theorem KeepsSeasons.dayOfSeason_of_add_one_eq (h : d.KeepsSeasons last next)
    (hdate : d.date + (1 : Int) = next) : d.dayOfSeason = 70 := by
  have hday : d.date.dayNumber + 1 = next.dayNumber := congrArg CivilDate.dayNumber hdate
  have hstart : next - (70 : Int) ≤ d.date := by
    rw [CivilDate.le_iff, CivilDate.dayNumber_sub]
    omega
  have hend : d.date < next := by
    rw [CivilDate.lt_iff]
    omega
  rw [h.dayOfSeason_of_triodion hstart hend, CivilDate.sub_eq]
  omega

theorem exists_keepsSeasons (h : ofDate r date = .ok d) :
    ∃ year, d.date = date ∧ d.KeepsSeasons (Pascha.ofYear year) (Pascha.ofYear (year + 1)) ∧
      Pascha.ofYear year ≤ date ∧ date < Pascha.ofYear (year + 1) := by
  obtain ⟨hyear, a, hanchors, rfl⟩ := exists_anchors h
  have ha := Anchors.areOfYear_of_ofYear hyear hanchors
  obtain ⟨year, -, -, hlast, hnext, hle, hlt⟩ := exists_paschaLast_paschaNext hyear ha
  have hseasons := keepsSeasons_ofAnchors hyear ha
  rw [hlast, hnext] at hseasons
  exact ⟨year, rfl, hseasons, hle, hlt⟩

/-- From a day of a season to the next the count goes up by one, through Pascha and up to All
Saints. -/
theorem dayOfSeason_add_one (h : ofDate r date = .ok d) (h' : ofDate r' (date + (1 : Int)) = .ok d')
    (hseason : d.isTriodion ∨ d.isPentecostarion ∧ d.dayOfSeason < 127) :
    d'.dayOfSeason = d.dayOfSeason + 1 := by
  obtain ⟨year, rfl, hd, hle, hlt⟩ := exists_keepsSeasons h
  obtain ⟨year', hdate', hd', hle', hlt'⟩ := exists_keepsSeasons h'
  by_cases hpascha : d.date + (1 : Int) < Pascha.ofYear (year + 1)
  · obtain rfl : year' = year := CivilDate.year_eq_of_between Pascha.ofYear_le_ofYear hle' hlt'
      (Int.le_trans hle d.date.le_add_one) hpascha
    exact hd.dayOfSeason_add_one hd' hdate' (hdate' ▸ hpascha) hseason
  · have hturn : d.date + (1 : Int) = Pascha.ofYear (year + 1) :=
      CivilDate.le_antisymm (Int.add_one_le_of_lt hlt) (Int.not_lt.1 hpascha)
    have hgap : Pascha.dayNumber (year + 1) + 329 < Pascha.dayNumber (year + 1 + 1) :=
      Pascha.dayNumber_add_lt (Int.lt_succ (year + 1))
    have hbefore : Pascha.ofYear (year + 1) < Pascha.ofYear (year + 1 + 1) :=
      show Pascha.dayNumber (year + 1) < Pascha.dayNumber (year + 1 + 1) by omega
    obtain rfl : year' = year + 1 := CivilDate.year_eq_of_between Pascha.ofYear_le_ofYear hle' hlt'
      (Int.not_lt.1 hpascha) (hturn ▸ hbefore)
    rw [hd'.dayOfSeason_eq_iff.2 (hdate'.trans hturn), hd.dayOfSeason_of_add_one_eq hturn]
    rfl

/-- The seasons of a date and the counts of their days go by the latest Pascha of all years up to it
and the first one after it. The day of the season runs from 1 through the seventy days of the
Triodion, is 71 on a Pascha and on no other day, and runs on to 127. The weeks of Great Lent are
those before this year's Pascha, from Monday to Sunday. -/
theorem seasons_follow_nearest_paschas (h : ofDate r date = .ok d) :
    IsGreatest {pascha | pascha ∈ Pascha.all ∧ pascha ≤ date} d.paschaLast ∧
      IsLeast {pascha | pascha ∈ Pascha.all ∧ date < pascha} d.paschaNext ∧
      d.date = date ∧ d.KeepsSeasons d.paschaLast d.paschaNext ∧ d.KeepsLent ∧
      (d.dayOfSeason = 71 ↔ date ∈ Pascha.all) ∧ 0 ≤ d.dayOfSeason ∧ d.dayOfSeason ≤ 127 ∧
      ∀ r' d', ofDate r' (date + (1 : Int)) = .ok d' →
        d.isTriodion ∨ d.isPentecostarion ∧ d.dayOfSeason < 127 →
        d'.dayOfSeason = d.dayOfSeason + 1 := by
  obtain ⟨hyear, a, hanchors, rfl⟩ := exists_anchors h
  have ha := Anchors.areOfYear_of_ofYear hyear hanchors
  have hanchored := isAnchored_ofAnchors hyear ha
  have hseasons := keepsSeasons_ofAnchors hyear ha
  obtain ⟨⟨hpascha, hle⟩, hlatest⟩ := hanchored.paschaLast
  refine ⟨hanchored.paschaLast, hanchored.paschaNext, rfl, hseasons, keepsLent_ofAnchors hyear ha,
    ?_, hseasons.dayOfSeason_bounds.1, hseasons.dayOfSeason_bounds.2,
    fun r' d' h' => dayOfSeason_add_one h h'⟩
  rw [hseasons.dayOfSeason_eq_iff]
  constructor
  · intro hdate
    exact (congrArg (· ∈ Pascha.all) hdate).mpr hpascha
  · intro hdate
    exact CivilDate.le_antisymm (hlatest ⟨hdate, Int.le_refl _⟩) hle

/-- In the Gregorian year 9999 Holy Saturday is 26 June, and the day after it is Pascha. -/
theorem seasons_follow_nearest_paschas_lateJune :
    Reckoning.gregorian.label ⟨3651871⟩ = ⟨9999, 6, 26⟩ ∧
      ∃ d d', ofDate .gregorian ⟨3651871⟩ = .ok d ∧ ofDate .gregorian ⟨3651872⟩ = .ok d' ∧
        d.isTriodion ∧ d.dayOfSeason = 70 ∧ d.weekOfLent? = some 7 ∧ d'.dayOfSeason = 71 := by
  have hlabel : Reckoning.gregorian.label ⟨3651871⟩ = ⟨9999, 6, 26⟩ := rfl
  obtain ⟨d, hd⟩ := exists_ofDate_eq_ok_iff.2
    (show IsLiturgicalYear (Reckoning.gregorian.label ⟨3651871⟩).year by decide)
  obtain ⟨d', hd'⟩ := exists_ofDate_eq_ok_iff.2
    (show IsLiturgicalYear (Reckoning.gregorian.label ⟨3651872⟩).year by decide)
  obtain ⟨-, -, hdate, hseasons, hlent, -, -, -, hnextDay⟩ := seasons_follow_nearest_paschas hd
  have hpaschas : d.paschaNext = ⟨3651872⟩ ∧ d.paschaThisYear = ⟨3651872⟩ := by
    cases hd
    exact ⟨rfl, rfl⟩
  have htriodion : d.isTriodion := by
    rw [hseasons.isTriodion_iff, hdate, hpaschas.1]
    decide
  have hday : d.dayOfSeason = 70 := by
    rw [(hseasons.dayOfTriodion htriodion).1, hdate, hpaschas.1]
    rfl
  have hweek : d.weekOfLent? = some 7 := by
    rw [hlent.holyWeek, hdate, hpaschas.2]
    decide
  refine ⟨hlabel, d, d', hd, hd', htriodion, hday, hweek, ?_⟩
  rw [hnextDay _ _ hd' (.inl htriodion), hday]
  rfl

end OfDate

end LiturgicalDay

end Typikon
