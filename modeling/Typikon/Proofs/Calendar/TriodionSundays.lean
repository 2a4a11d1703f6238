import Mathlib.Data.Set.Card
import Mathlib.Tactic.IntervalCases
import Typikon.Proofs.Calendar.NearestAnchors

/-!
The Sundays from 15 January to the start of the Triodion. The start is a Sunday of the year it is
told for, so that each full week before it has one Sunday. It may come before 15 January, but not by
a week, and then there is no Sunday to count.
-/

namespace Typikon

namespace CivilDate

variable {first last : CivilDate}

/-- The Sundays from a date on and before another. -/
def sundays (first last : CivilDate) : Set CivilDate :=
  {date | date.weekday = .sunday ∧ first ≤ date ∧ date < last}

/-- The day of the same name some weeks before a date, the nearest one being 0. -/
def weeksBefore (last : CivilDate) (n : Nat) : CivilDate :=
  last - (7 * (n + 1) : Int)

theorem weeksBefore_injective (last : CivilDate) : Function.Injective last.weeksBefore := by
  intro n m h
  have hday := congrArg dayNumber h
  simp only [weeksBefore, dayNumber_sub] at hday
  omega

/-- Back from a Sunday there is one Sunday in each full week. -/
theorem sundays_eq_map_range (hlast : last.weekday = .sunday) :
    sundays first last =
      (Finset.range ((last - first : Int) / 7).toNat).map
        ⟨last.weeksBefore, last.weeksBefore_injective⟩ := by
  rw [weekday_eq_sunday_iff] at hlast
  ext date
  simp only [Finset.coe_map, Function.Embedding.coeFn_mk, Set.mem_image, Finset.mem_coe,
    Finset.mem_range, sub_eq]
  constructor
  · rintro ⟨hsunday, hfirst, hbefore⟩
    rw [weekday_eq_sunday_iff] at hsunday
    rw [le_iff] at hfirst
    rw [lt_iff] at hbefore
    refine ⟨((last.dayNumber - date.dayNumber) / 7 - 1).toNat, by omega, eq_of_dayNumber_eq ?_⟩
    rw [weeksBefore, dayNumber_sub]
    omega
  · rintro ⟨n, hn, rfl⟩
    refine ⟨?_, ?_, ?_⟩
    · rw [weekday_eq_sunday_iff, weeksBefore, dayNumber_sub]
      omega
    · rw [le_iff, weeksBefore, dayNumber_sub]
      omega
    · rw [lt_iff, weeksBefore, dayNumber_sub]
      omega

theorem finite_sundays (hlast : last.weekday = .sunday) : (sundays first last).Finite := by
  rw [sundays_eq_map_range hlast]
  exact Finset.finite_toSet _

theorem ncard_sundays (hlast : last.weekday = .sunday) :
    (sundays first last).ncard = ((last - first : Int) / 7).toNat := by
  rw [sundays_eq_map_range hlast, Set.ncard_coe_finset, Finset.card_map, Finset.card_range]

/-- The rounding towards zero does not matter where no full week is missing. -/
theorem ncard_sundays_eq_tdiv (hlast : last.weekday = .sunday) (hweek : -7 < (last - first : Int)) :
    (sundays first last).ncard = (last - first : Int).tdiv 7 := by
  rw [ncard_sundays hlast]
  generalize (last - first : Int) = days at hweek
  rcases Int.lt_or_le days 0 with hnegative | hnonneg
  · rw [← Int.neg_neg days, Int.neg_tdiv, Int.tdiv_eq_zero_of_lt (by omega) (by omega)]
    omega
  · rw [Int.tdiv_eq_ediv_of_nonneg hnonneg]
    omega

end CivilDate

namespace Pascha

/-- Pascha is never on 21 March. -/
theorem one_le_daysAfterEquinox_julian (year : Int) : 1 ≤ daysAfterEquinox .julian year := by
  have hmoon : 1 ≤ (19 * (year % 19) + 16) % 30 := by
    have hlow := Int.emod_nonneg year (by decide : (19 : Int) ≠ 0)
    have hhigh := Int.emod_lt_of_pos year (by decide : (0 : Int) < 19)
    interval_cases year % 19 <;> decide
  simp only [daysAfterEquinox]
  omega

/-- The Triodion starts on 11 January or later. -/
theorem newYear_add_ten_le (r : Reckoning) {year : Int} (h : IsLiturgicalYear year) :
    r.newYear year + 10 ≤ (ofYear year - (70 : Int)).dayNumber := by
  obtain ⟨hlow, hhigh⟩ := h
  have hequinox := one_le_daysAfterEquinox_julian year
  change r.newYear year + 10 ≤ dayNumber year - 70
  rw [dayNumber]
  cases r with
  | gregorian | julian =>
    simp only [Reckoning.newYear, Reckoning.beforeMarch, Reckoning.gregorianEpoch,
      Reckoning.julianEpoch] at *
    omega

end Pascha

theorem Reckoning.dayNumber_of_label_midJanuary {r : Reckoning} {date : CivilDate} {year : Int}
    (h : r.label date = ⟨year, 1, 15⟩) : date.dayNumber = r.newYear year + 14 := by
  obtain ⟨-, hday⟩ := label_eq_iff.1 h
  have hyear : marchYear year 1 = year + 4799 := by
    change year + 4800 - 1 = year + 4799
    omega
  have hplace : marchDay 1 15 = 321 := rfl
  rw [hday, dayNumber_eq, hyear, hplace, newYear]
  omega

namespace LiturgicalDay

variable {r : Reckoning} {date : CivilDate} {d : LiturgicalDay}

/-- The Sundays that a liturgical day tells are those from 15 January to the start of the Triodion,
both in the year of the day. The start is four days before 15 January at the earliest. -/
theorem sundaysBeforeTriodionStart_eq_ncard (h : ofDate r date = .ok d) :
    d.year = (r.label date).year ∧ (r.label d.triodionStartThisYear).year = d.year ∧
      ∃ midJanuary, r.toCivil ⟨d.year, 1, 15⟩ = .ok midJanuary ∧
        d.daysUntilTriodionStart = d.triodionStartThisYear - midJanuary ∧
        -4 ≤ d.daysUntilTriodionStart ∧
        (CivilDate.sundays midJanuary d.triodionStartThisYear).Finite ∧
        d.sundaysBeforeTriodionStart =
          (CivilDate.sundays midJanuary d.triodionStartThisYear).ncard := by
  obtain ⟨hyear, a, hanchors, rfl⟩ := exists_anchors h
  have ha := Anchors.areOfYear_of_ofYear hyear hanchors
  have hstart : (ofAnchors r date a).triodionStartThisYear =
      Pascha.ofYear (r.label date).year - (70 : Int) := by
    change a.paschaThisYear - (70 : Int) = _
    rw [ha.paschaThisYear]
  have hsunday : (ofAnchors r date a).triodionStartThisYear.weekday = .sunday :=
    (isAnchored_ofAnchors hyear ha).sundays _ (by simp)
  have hjanuary : r.toCivil ⟨(r.label date).year, 1, 15⟩ = .ok a.midJanuary := by
    rw [← ha.midJanuary]
    exact ha.toCivil_label_eq_ok hyear (by simp [Anchors.dates])
  have hbounds : -4 ≤ ((ofAnchors r date a).triodionStartThisYear - a.midJanuary : Int) := by
    have hlow := Pascha.newYear_add_ten_le r hyear
    rw [CivilDate.sub_eq, Reckoning.dayNumber_of_label_midJanuary ha.midJanuary, hstart]
    omega
  refine ⟨rfl, ?_, a.midJanuary, hjanuary, rfl, hbounds, CivilDate.finite_sundays hsunday, ?_⟩
  · rw [hstart]
    exact Pascha.year_label_triodionStart r hyear
  · rw [CivilDate.ncard_sundays_eq_tdiv hsunday (Int.lt_of_lt_of_le (by decide) hbounds)]
    rfl

/-- In the Julian year 2010 the Triodion starts on 11 January, four days before there could be a
Sunday to count. -/
theorem sundaysBeforeTriodionStart_eq_ncard_earlyStart :
    ∃ d, ofDate .julian ⟨733900⟩ = .ok d ∧
      Reckoning.julian.label d.triodionStartThisYear = ⟨2010, 1, 11⟩ ∧
      d.daysUntilTriodionStart = -4 ∧
      ∃ midJanuary, Reckoning.julian.toCivil ⟨2010, 1, 15⟩ = .ok midJanuary ∧
        (CivilDate.sundays midJanuary d.triodionStartThisYear).ncard = 0 := by
  obtain ⟨d, hd⟩ : ∃ d, ofDate .julian ⟨733900⟩ = .ok d := ⟨_, rfl⟩
  obtain ⟨-, -, midJanuary, hjanuary, -, -, -, hcount⟩ := sundaysBeforeTriodionStart_eq_ncard hd
  cases hd
  exact ⟨_, rfl, rfl, rfl, midJanuary, hjanuary, Int.ofNat.inj hcount.symm⟩

end LiturgicalDay

end Typikon
