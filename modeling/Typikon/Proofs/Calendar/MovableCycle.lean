import Typikon.Proofs.Calendar.Paschalion

/-!
The movable cycle of a day: what of its liturgical day hangs on Pascha alone. Between All Saints and
the Triodion nothing in it tells in which of the two years around the turn of the year the day is
counted, and all the dates on which the reckonings are in different years lie there.
-/

namespace Typikon

structure MovableCycle where
  weekday : Weekday
  paschaLast : CivilDate
  paschaNext : CivilDate
  thomasSunday : CivilDate
  triodionStartLast : CivilDate
  palmSundayNext : CivilDate
  lazarusSaturdayNext : CivilDate
  isPascha : Bool
  isTriodion : Bool
  isPentecostarion : Bool
  dayOfSeason : Int
  daysSinceTriodionStart : Int
  modeOfWeek : Nat
  eothinon : Nat
  weekOfLent : Option Nat
  pentecostarionDay : Option Int
deriving DecidableEq

namespace LiturgicalDay

def movableCycle (d : LiturgicalDay) : MovableCycle where
  weekday := d.weekday
  paschaLast := d.paschaLast
  paschaNext := d.paschaNext
  thomasSunday := d.thomasSunday
  triodionStartLast := d.triodionStartLast
  palmSundayNext := d.palmSundayNext
  lazarusSaturdayNext := d.lazarusSaturdayNext
  isPascha := d.isPascha
  isTriodion := d.isTriodion
  isPentecostarion := d.isPentecostarion
  dayOfSeason := d.dayOfSeason
  daysSinceTriodionStart := d.daysSinceTriodionStart
  modeOfWeek := d.modeOfWeek
  eothinon := d.eothinon
  weekOfLent := d.weekOfLent?
  pentecostarionDay := d.pentecostarionDay?

end LiturgicalDay

namespace MovableCycle

/-- The cycle on a date between the All Saints after one Pascha and the Triodion before the next. -/
def betweenSeasons (date last next : CivilDate) : MovableCycle where
  weekday := date.weekday
  paschaLast := last
  paschaNext := next
  thomasSunday := last + (7 : Int)
  triodionStartLast := last - (70 : Int)
  palmSundayNext := next - (7 : Int)
  lazarusSaturdayNext := next - (8 : Int)
  isPascha := false
  isTriodion := false
  isPentecostarion := false
  dayOfSeason := 0
  daysSinceTriodionStart := date - (last - (70 : Int)) + 1
  modeOfWeek := LiturgicalDay.modeAfterThomasSunday (date - (last + (7 : Int)))
  eothinon :=
    if date.weekday = .sunday then
      LiturgicalDay.gospelAfterAllSaints (date - (last + (56 : Int)))
    else 0
  weekOfLent := none
  pentecostarionDay := none

end MovableCycle

namespace Anchors

theorem paschas_of_ofYear {r : Reckoning} {year : Int} {a : Anchors} (hyear : IsLiturgicalYear year)
    (h : ofYear r year = .ok a) :
    a.paschaLastYear = Pascha.ofYear (year - 1) ∧ a.paschaThisYear = Pascha.ofYear year ∧
      a.paschaNextYear = Pascha.ofYear (year + 1) := by
  obtain ⟨hlow, hhigh⟩ := hyear
  obtain ⟨last, hlast, h⟩ := exists_of_bind_eq_ok h
  obtain ⟨this, hthis, h⟩ := exists_of_bind_eq_ok h
  obtain ⟨next, hnext, h⟩ := exists_of_bind_eq_ok h
  obtain ⟨_, -, h⟩ := exists_of_bind_eq_ok h
  obtain ⟨_, -, h⟩ := exists_of_bind_eq_ok h
  obtain ⟨_, -, h⟩ := exists_of_bind_eq_ok h
  cases h
  exact ⟨Pascha.eq_ofYear_of_date (by omega) hlast,
    Pascha.eq_ofYear_of_date (by omega) hthis,
    Pascha.eq_ofYear_of_date (by omega) hnext⟩

end Anchors

namespace LiturgicalDay

variable {r r' : Reckoning} {date : CivilDate} {a b : Anchors}

theorem movableCycle_ofAnchors_congr (hlast : a.paschaLastYear = b.paschaLastYear)
    (hthis : a.paschaThisYear = b.paschaThisYear) (hnext : a.paschaNextYear = b.paschaNextYear) :
    (ofAnchors r date a).movableCycle = (ofAnchors r' date b).movableCycle := by
  obtain ⟨_, _, _, _, _, _⟩ := a
  obtain ⟨_, _, _, _, _, _⟩ := b
  cases hlast
  cases hthis
  cases hnext
  rfl

theorem week_of_mem_weeksOfLent :
    ∀ row ∈ weeksOfLent, ∀ days : Int, row.1 ≤ days → days ≤ row.2.1 →
      23 ≤ days ∧ days ≤ 70 ∧ (row.2.2 : Int) = (days - 23) / 7 + 1 := by
  simp only [weeksOfLent, List.forall_mem_cons]
  refine ⟨?_, ?_, ?_, ?_, ?_, ?_, ?_, by simp⟩ <;> omega

theorem exists_mem_weeksOfLent {days : Int} (hlow : 23 ≤ days) (hhigh : days ≤ 70) :
    ∃ row ∈ weeksOfLent, row.1 ≤ days ∧ days ≤ row.2.1 := by
  simp only [weeksOfLent, List.mem_cons, exists_eq_or_imp]
  omega

/-- The weeks of Great Lent follow one another, and no day between the first and the last of them is
left out. -/
theorem weekOfLent?_eq_some_iff {d : LiturgicalDay} {week : Nat} :
    d.weekOfLent? = some week ↔ 23 ≤ d.daysSinceTriodionStart ∧ d.daysSinceTriodionStart ≤ 70 ∧
      (week : Int) = (d.daysSinceTriodionStart - 23) / 7 + 1 := by
  have hrow {row : Int × Int × Nat} (hfind : weeksOfLent.find? (fun row =>
      row.1 ≤ d.daysSinceTriodionStart && d.daysSinceTriodionStart ≤ row.2.1) = some row) :
      23 ≤ d.daysSinceTriodionStart ∧ d.daysSinceTriodionStart ≤ 70 ∧
        (row.2.2 : Int) = (d.daysSinceTriodionStart - 23) / 7 + 1 := by
    have hdays := List.find?_some hfind
    simp only [Bool.and_eq_true, decide_eq_true_eq] at hdays
    exact week_of_mem_weeksOfLent row (List.mem_of_find?_eq_some hfind) _ hdays.1 hdays.2
  constructor
  · intro h
    obtain ⟨row, hfind, rfl⟩ := Option.map_eq_some_iff.1 h
    exact hrow hfind
  · rintro ⟨hlow, hhigh, hweek⟩
    obtain ⟨row, hmem, hfirst, hlast⟩ := exists_mem_weeksOfLent hlow hhigh
    have hsome : (weeksOfLent.find? fun row =>
        row.1 ≤ d.daysSinceTriodionStart && d.daysSinceTriodionStart ≤ row.2.1).isSome :=
      List.find?_isSome.2 ⟨row, hmem, by simp [hfirst, hlast]⟩
    obtain ⟨found, hfind⟩ := Option.isSome_iff_exists.1 hsome
    obtain ⟨-, -, hfound⟩ := hrow hfind
    exact Option.map_eq_some_iff.2 ⟨found, hfind, by omega⟩

theorem pentecostarionDay?_eq_none {d : LiturgicalDay} (h : ¬d.isPentecostarion) :
    d.pentecostarionDay? = none := by
  rw [pentecostarionDay?, pentecostarionDay, if_pos h]
  rfl

theorem weekOfLent?_eq_none_iff {d : LiturgicalDay} :
    d.weekOfLent? = none ↔ ¬(23 ≤ d.daysSinceTriodionStart ∧ d.daysSinceTriodionStart ≤ 70) := by
  rw [Option.eq_none_iff_forall_ne_some]
  simp only [ne_eq, weekOfLent?_eq_some_iff]
  constructor
  · rintro h ⟨hlow, hhigh⟩
    exact h ((d.daysSinceTriodionStart - 23) / 7 + 1).toNat ⟨hlow, hhigh, by omega⟩
  · rintro h week ⟨hlow, hhigh, -⟩
    exact h ⟨hlow, hhigh⟩

/-- After All Saints the cycle is that between this year's Pascha and the next. -/
theorem movableCycle_ofAnchors_of_allSaints_lt (h : a.paschaThisYear + (56 : Int) < date) :
    (ofAnchors r date a).movableCycle =
      MovableCycle.betweenSeasons date a.paschaThisYear a.paschaNextYear := by
  rw [CivilDate.lt_iff, CivilDate.dayNumber_add] at h
  have hpascha : a.paschaThisYear ≤ date := CivilDate.le_iff.mpr (by omega)
  have hpascha' : ¬date < a.paschaThisYear := by
    rw [CivilDate.lt_iff]
    omega
  have hnot : date ≠ a.paschaThisYear := by
    rintro rfl
    omega
  have htriodion : ¬date < a.paschaThisYear - (70 : Int) := by
    rw [CivilDate.lt_iff, CivilDate.dayNumber_sub]
    omega
  have hallSaints : ¬date < a.paschaThisYear + (56 : Int) := by
    rw [CivilDate.lt_iff, CivilDate.dayNumber_add]
    omega
  have hallSaints' : ¬date ≤ a.paschaThisYear + (56 : Int) := by
    rw [CivilDate.le_iff, CivilDate.dayNumber_add]
    omega
  have hlent : ¬date - (a.paschaThisYear - (70 : Int)) + 1 ≤ 70 := by
    rw [CivilDate.sub_eq, CivilDate.dayNumber_sub]
    omega
  simp [movableCycle, ofAnchors, weekOfLent?_eq_none_iff.2, pentecostarionDay?_eq_none,
    MovableCycle.betweenSeasons, hpascha, hpascha', hnot, htriodion, hallSaints, hallSaints', hlent]

/-- Before the Triodion the cycle is that between last year's Pascha and this year's. -/
theorem movableCycle_ofAnchors_of_lt_triodion (h : date < a.paschaThisYear - (70 : Int))
    (hlast : a.paschaLastYear < date) :
    (ofAnchors r date a).movableCycle =
      MovableCycle.betweenSeasons date a.paschaLastYear a.paschaThisYear := by
  have htriodion := h
  rw [CivilDate.lt_iff, CivilDate.dayNumber_sub] at h
  rw [CivilDate.lt_iff] at hlast
  have htriodion' : ¬a.paschaThisYear - (70 : Int) ≤ date := by
    rw [CivilDate.le_iff, CivilDate.dayNumber_sub]
    omega
  have hpascha : date < a.paschaThisYear := CivilDate.lt_iff.mpr (by omega)
  have hpascha' : ¬a.paschaThisYear ≤ date := by
    rw [CivilDate.le_iff]
    omega
  have hnot : date ≠ a.paschaThisYear := by
    rintro rfl
    omega
  have hallSaints : date < a.paschaThisYear + (56 : Int) := by
    rw [CivilDate.lt_iff, CivilDate.dayNumber_add]
    omega
  have hlent : ¬date - (a.paschaLastYear - (70 : Int)) + 1 ≤ 70 := by
    rw [CivilDate.sub_eq, CivilDate.dayNumber_sub]
    omega
  simp [movableCycle, ofAnchors, weekOfLent?_eq_none_iff.2, pentecostarionDay?_eq_none,
    MovableCycle.betweenSeasons, hpascha, hpascha', hnot, htriodion, htriodion', hallSaints, hlent]

theorem exists_anchors {d : LiturgicalDay} (h : ofDate r date = .ok d) :
    IsLiturgicalYear (r.label date).year ∧
      ∃ a, Anchors.ofYear r (r.label date).year = .ok a ∧ d = ofAnchors r date a := by
  unfold ofDate at h
  dsimp only at h
  split at h
  · next hyear =>
    cases ha : Anchors.ofYear r (r.label date).year with
    | error e =>
      rw [ha] at h
      cases h
    | ok a =>
      rw [ha] at h
      cases h
      exact ⟨hyear, a, rfl, rfl⟩
  · cases h

/-- The movable cycle of a date is the same in both reckonings, in whatever years they are. -/
theorem movableCycle_gregorian_eq_julian {g j : LiturgicalDay}
    (hg : ofDate .gregorian date = .ok g) (hj : ofDate .julian date = .ok j) :
    g.movableCycle = j.movableCycle := by
  obtain ⟨hgYear, a, ha, rfl⟩ := exists_anchors hg
  obtain ⟨hjYear, b, hb, rfl⟩ := exists_anchors hj
  obtain ⟨haLast, haThis, haNext⟩ := Anchors.paschas_of_ofYear hgYear ha
  obtain ⟨hbLast, hbThis, hbNext⟩ := Anchors.paschas_of_ofYear hjYear hb
  rcases Reckoning.year_gregorian_eq_or hjYear.1 hjYear.2 with hsame | hnext
  · rw [hsame] at haLast haThis haNext
    exact movableCycle_ofAnchors_congr (haLast.trans hbLast.symm) (haThis.trans hbThis.symm)
      (haNext.trans hbNext.symm)
  · -- The Gregorian new year is past and the Julian one is to come.
    have hstart := (Reckoning.gregorian.newYear_le_and_lt date).1
    have hend := (Reckoning.julian.newYear_le_and_lt date).2
    rw [hnext] at hstart haLast haThis
    obtain ⟨hallSaints, htriodion⟩ := Pascha.allSaints_lt_and_lt_triodion hjYear hstart hend
    have hold : a.paschaLastYear = b.paschaThisYear := by
      rw [haLast, hbThis, Int.add_sub_cancel]
    have hnew : a.paschaThisYear = b.paschaNextYear := haThis.trans hbNext.symm
    rw [← haThis] at htriodion
    rw [← hbThis] at hallSaints
    calc
      (ofAnchors .gregorian date a).movableCycle
        = MovableCycle.betweenSeasons date a.paschaLastYear a.paschaThisYear := by
          apply movableCycle_ofAnchors_of_lt_triodion htriodion
          rw [hold, CivilDate.lt_iff]
          rw [CivilDate.lt_iff, CivilDate.dayNumber_add] at hallSaints
          omega
      _ = MovableCycle.betweenSeasons date b.paschaThisYear b.paschaNextYear := by
          rw [hold, hnew]
      _ = (ofAnchors .julian date b).movableCycle :=
          (movableCycle_ofAnchors_of_allSaints_lt hallSaints).symm

/-- On 5 January 2025 the Julian year is still 2024. -/
theorem movableCycle_gregorian_eq_julian_newYear :
    ∃ g j, ofDate .gregorian ⟨739256⟩ = .ok g ∧ ofDate .julian ⟨739256⟩ = .ok j ∧
      g.year = 2025 ∧ j.year = 2024 ∧ g.movableCycle = j.movableCycle := by
  have hgregorian : ∃ g, ofDate .gregorian ⟨739256⟩ = .ok g ∧ g.year = 2025 := ⟨_, rfl, rfl⟩
  have hjulian : ∃ j, ofDate .julian ⟨739256⟩ = .ok j ∧ j.year = 2024 := ⟨_, rfl, rfl⟩
  obtain ⟨g, hg, hgYear⟩ := hgregorian
  obtain ⟨j, hj, hjYear⟩ := hjulian
  exact ⟨g, j, hg, hj, hgYear, hjYear, movableCycle_gregorian_eq_julian hg hj⟩

end LiturgicalDay

end Typikon
