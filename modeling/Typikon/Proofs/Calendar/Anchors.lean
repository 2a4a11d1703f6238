import Typikon.Proofs.Calendar.MovableCycle
import Typikon.Proofs.Calendar.NextDate
import Typikon.Proofs.Calendar.Paschas

/-!
The anchors around a liturgical year. They all exist, and are so far inside the supported dates that
no count of days from one of them leaves these.
-/

namespace Typikon

namespace Pascha

theorem dayNumber_bounds_of_year {year : Int} (hlow : 0 ≤ year) (hhigh : year ≤ 10000) :
    -1000 ≤ (ofYear year).dayNumber ∧ (ofYear year).dayNumber ≤ 4000000 := by
  obtain ⟨hspring, hspring'⟩ := dayNumber_bounds year
  change -1000 ≤ dayNumber year ∧ dayNumber year ≤ 4000000
  simp only [Reckoning.beforeMarch, Reckoning.julianEpoch] at hspring hspring'
  omega

theorem date_eq_ok_of_year (r : Reckoning) {year : Int} (hlow : 0 ≤ year) (hhigh : year ≤ 10000) :
    Pascha.date r year = .ok (ofYear year) := by
  obtain ⟨hfirst, hlast⟩ := dayNumber_bounds_of_year hlow hhigh
  exact date_eq_ok r hlow ⟨by omega, by omega⟩

theorem dayNumber_emod_seven (year : Int) : (ofYear year).dayNumber % 7 = 0 := by
  rw [← CivilDate.weekday_eq_sunday_iff, ofYear_eq_sundayAfter_fullMoon]
  exact (Elevation.isFirstSundayAfter_sundayAfter (fullMoon year)).weekday

/-- A date of a liturgical year comes well after the Pascha of the year before, and well before that
of the year after. -/
theorem lt_and_lt_of_isLiturgicalYear {r : Reckoning} {date : CivilDate}
    (h : IsLiturgicalYear (r.label date).year) :
    ofYear ((r.label date).year - 1) + (170 : Int) < date ∧
      date + (70 : Int) < ofYear ((r.label date).year + 1) := by
  obtain ⟨hlow, hhigh⟩ := h
  obtain ⟨hstart, hend⟩ := r.newYear_le_and_lt date
  generalize (r.label date).year = year at *
  have hbefore := (dayNumber_bounds (year - 1)).2
  have hafter := (dayNumber_bounds (year + 1)).1
  change dayNumber (year - 1) + 170 < date.dayNumber ∧ date.dayNumber + 70 < dayNumber (year + 1)
  cases r with
  | gregorian | julian =>
    simp only [Reckoning.newYear, Reckoning.beforeMarch, Reckoning.gregorianEpoch,
      Reckoning.julianEpoch] at *
    omega

/-- The Triodion starts in the year of its Pascha. -/
theorem year_label_triodionStart (r : Reckoning) {year : Int} (h : IsLiturgicalYear year) :
    (r.label (ofYear year - (70 : Int))).year = year := by
  obtain ⟨hlow, hhigh⟩ := h
  obtain ⟨hspring, hspring'⟩ := dayNumber_bounds year
  have hbounds : r.newYear year ≤ dayNumber year - 70 ∧
      dayNumber year - 70 < r.newYear (year + 1) := by
    cases r with
    | gregorian | julian =>
      simp only [Reckoning.newYear, Reckoning.beforeMarch, Reckoning.gregorianEpoch,
        Reckoning.julianEpoch] at *
      omega
  exact Reckoning.year_eq_of_newYear hbounds.1 hbounds.2

end Pascha

/-- The Sunday after the Elevation is in its year. -/
theorem Elevation.year_label_sundayAfter {r : Reckoning} {date : CivilDate} {year : Int}
    (h : r.label date = ⟨year, 9, 14⟩) : (r.label (sundayAfter date)).year = year := by
  obtain ⟨-, hday⟩ := Reckoning.label_eq_iff.1 h
  have hplace : date.dayNumber = r.beforeMarch (year + 4800) + 198 := by
    simpa [Reckoning.dayNumber_eq, Reckoning.marchYear, Reckoning.marchDay] using hday
  have hsunday : (sundayAfter date).dayNumber = date.dayNumber + (7 - date.dayNumber % 7) := rfl
  have hlength := r.beforeMarch_succ (year + 4799)
  have hfirst : year + 4799 + 1 = year + 4800 := by omega
  have hlast : year + 1 + 4799 = year + 4800 := by omega
  apply Reckoning.year_eq_of_newYear
  · rw [hfirst] at hlength
    rw [Reckoning.newYear]
    split at hlength <;> omega
  · rw [Reckoning.newYear, hlast]
    omega

namespace Anchors

/-- The anchors around a year of a reckoning. -/
structure AreOfYear (a : Anchors) (r : Reckoning) (year : Int) : Prop where
  paschaLastYear : a.paschaLastYear = Pascha.ofYear (year - 1)
  paschaThisYear : a.paschaThisYear = Pascha.ofYear year
  paschaNextYear : a.paschaNextYear = Pascha.ofYear (year + 1)
  midJanuary : r.label a.midJanuary = ⟨year, 1, 15⟩
  elevationLastYear : r.label a.elevationLastYear = ⟨year - 1, 9, 14⟩
  elevationThisYear : r.label a.elevationThisYear = ⟨year, 9, 14⟩

theorem exists_ofYear_eq_ok (r : Reckoning) {year : Int} (h : IsLiturgicalYear year) :
    ∃ a, ofYear r year = .ok a ∧ a.AreOfYear r year := by
  obtain ⟨hlow, hhigh⟩ := h
  have hlast : Pascha.date r (year - 1) = .ok (Pascha.ofYear (year - 1)) :=
    Pascha.date_eq_ok_of_year r (by omega) (by omega)
  have hthis : Pascha.date r year = .ok (Pascha.ofYear year) :=
    Pascha.date_eq_ok_of_year r (by omega) (by omega)
  have hnext : Pascha.date r (year + 1) = .ok (Pascha.ofYear (year + 1)) :=
    Pascha.date_eq_ok_of_year r (by omega) (by omega)
  have hjanuary : (⟨year, 1, 15⟩ : Label).NamesDay r := by
    constructor <;> simp [Reckoning.daysInMonth]
  have hseptember (y : Int) : (⟨y, 9, 14⟩ : Label).NamesDay r := by
    constructor <;> simp [Reckoning.daysInMonth]
  obtain ⟨midJanuary, hmidJanuary, hmidLabel⟩ :=
    Reckoning.exists_toCivil_eq_ok hjanuary (show 0 ≤ year by omega) (show year ≤ 10000 by omega)
  obtain ⟨this, helevation, hlabel⟩ :=
    Reckoning.exists_toCivil_eq_ok (hseptember year) (show 0 ≤ year by omega)
      (show year ≤ 10000 by omega)
  obtain ⟨last, helevation', hlabel'⟩ :=
    Reckoning.exists_toCivil_eq_ok (hseptember (year - 1)) (show 0 ≤ year - 1 by omega)
      (show year - 1 ≤ 10000 by omega)
  refine ⟨⟨Pascha.ofYear (year - 1), Pascha.ofYear year, Pascha.ofYear (year + 1), midJanuary,
    last, this⟩, ?_, ⟨rfl, rfl, rfl, hmidLabel, hlabel', hlabel⟩⟩
  unfold ofYear Elevation.date
  rw [hlast, hthis, hnext, hmidJanuary, helevation, helevation']
  rfl

theorem areOfYear_of_ofYear {r : Reckoning} {year : Int} {a : Anchors} (h : IsLiturgicalYear year)
    (ha : ofYear r year = .ok a) : a.AreOfYear r year := by
  obtain ⟨b, hb, hof⟩ := exists_ofYear_eq_ok r h
  cases ha.symm.trans hb
  exact hof

def dates (a : Anchors) : List CivilDate :=
  [a.paschaLastYear, a.paschaThisYear, a.paschaNextYear, a.midJanuary, a.elevationLastYear,
    a.elevationThisYear]

/-- The dates that are at most so many days away from an anchor. -/
def reach (a : Anchors) (days : Int) : Set CivilDate :=
  {date | ∃ anchor ∈ a.dates, -days ≤ date - anchor ∧ date - anchor ≤ days}

section Reach

variable {a : Anchors} {date other : CivilDate} {days more : Int}

theorem mem_reach_of_mem_dates (h : date ∈ a.dates) : date ∈ a.reach 0 :=
  ⟨date, h, by rw [CivilDate.sub_eq]; omega, by rw [CivilDate.sub_eq]; omega⟩

theorem mem_reach_ite {p : Prop} [Decidable p] (h : date ∈ a.reach days)
    (h' : other ∈ a.reach days) : (if p then date else other) ∈ a.reach days := by
  split
  · exact h
  · exact h'

theorem reach_subset (h : days ≤ more) : a.reach days ⊆ a.reach more := by
  rintro date ⟨anchor, hanchor, hbefore, hafter⟩
  exact ⟨anchor, hanchor, Int.le_trans (Int.neg_le_neg h) hbefore, Int.le_trans hafter h⟩

theorem add_mem_reach {n : Int} (h : date ∈ a.reach days) (hlow : days - more ≤ n)
    (hhigh : n ≤ more - days) : date + n ∈ a.reach more := by
  obtain ⟨anchor, hanchor, hbefore, hafter⟩ := h
  rw [CivilDate.sub_eq] at hbefore hafter
  refine ⟨anchor, hanchor, ?_, ?_⟩
  · rw [CivilDate.sub_eq, CivilDate.dayNumber_add]
    omega
  · rw [CivilDate.sub_eq, CivilDate.dayNumber_add]
    omega

theorem sub_mem_reach {n : Int} (h : date ∈ a.reach days) (hlow : days - more ≤ -n)
    (hhigh : -n ≤ more - days) : date - n ∈ a.reach more :=
  add_mem_reach h hlow hhigh

theorem sundayAfter_mem_reach (h : date ∈ a.reach days) :
    Elevation.sundayAfter date ∈ a.reach (days + 7) :=
  add_mem_reach h (by omega) (by omega)

/-- Dates well beyond the reach of any count from an anchor are still supported. -/
theorem AreOfYear.supported_of_mem_reach {r : Reckoning} {year : Int} (h : a.AreOfYear r year)
    (hyear : IsLiturgicalYear year) (hdate : date ∈ a.reach 1000) : date.Supported := by
  obtain ⟨hlow, hhigh⟩ := hyear
  obtain ⟨anchor, hanchor, hbefore, hafter⟩ := hdate
  rw [CivilDate.sub_eq] at hbefore hafter
  have hlabel {date : CivilDate} {y : Int} {month day : Nat}
      (hdate : r.label date = ⟨y, month, day⟩) (hy : 0 ≤ y) (hy' : y ≤ 10000) :
      -1000 ≤ date.dayNumber ∧ date.dayNumber ≤ 4000000 :=
    r.dayNumber_bounds_of_year date (hdate.symm ▸ hy) (hdate.symm ▸ hy')
  have hbounds : -1000 ≤ anchor.dayNumber ∧ anchor.dayNumber ≤ 4000000 := by
    simp only [dates, List.mem_cons, List.not_mem_nil, or_false] at hanchor
    rcases hanchor with rfl | rfl | rfl | rfl | rfl | rfl
    · rw [h.paschaLastYear]
      exact Pascha.dayNumber_bounds_of_year (by omega) (by omega)
    · rw [h.paschaThisYear]
      exact Pascha.dayNumber_bounds_of_year (by omega) (by omega)
    · rw [h.paschaNextYear]
      exact Pascha.dayNumber_bounds_of_year (by omega) (by omega)
    · exact hlabel h.midJanuary (by omega) (by omega)
    · exact hlabel h.elevationLastYear (by omega) (by omega)
    · exact hlabel h.elevationThisYear (by omega) (by omega)
  unfold CivilDate.Supported
  omega

/-- An anchor is the date that its label converts to. -/
theorem AreOfYear.toCivil_label_eq_ok {r : Reckoning} {year : Int} (h : a.AreOfYear r year)
    (hyear : IsLiturgicalYear year) (hdate : date ∈ a.dates) :
    r.toCivil (r.label date) = .ok date :=
  Reckoning.toCivil_label
    (h.supported_of_mem_reach hyear (reach_subset (by decide) (mem_reach_of_mem_dates hdate)))

end Reach

end Anchors

end Typikon
