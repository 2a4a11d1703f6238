import Typikon.Proofs.Calendar.Labels

/-!
Labels of years so far away that no supported date has them. None of them converts. The Gregorian
reckoning refuses them all, and the Julian one refuses those that name no day and those to which it
can count the days: at least the ones of the years from -5879488 to 5874688. At the others, which
name a day like any label, the count leaves its word and the conversion stops.
-/

namespace Typikon.Reckoning

variable {r : Reckoning} {label : Label}

/-- The day number bounds all the numbers that come up before it. The largest of them are reached
before the days up to the first civil date are taken away. -/
theorem canCount_julian_iff (hday : label.day ≤ 31) :
    Reckoning.julian.CanCount label ↔
      -2147483648 ≤ Reckoning.julian.dayNumber label ∧
        Reckoning.julian.dayNumber label ≤ 2145730139 := by
  constructor
  · intro h
    simp only [CanCount, julianCounts, List.forall_mem_cons] at h
    obtain ⟨-, -, -, -, ⟨-, hsum⟩, -, ⟨hlow, -⟩, -⟩ := h
    refine ⟨hlow, ?_⟩
    simp only [dayNumber_eq, beforeMarch, julianEpoch]
    omega
  · rintro ⟨hlow, hhigh⟩
    exact canCount_julian_of_dayNumber hday hlow hhigh

/-- A year begins with the last months of the one that began on 1 March. -/
theorem days_of_year_bounds (year : Int) {month day : Nat} (hmonth : 1 ≤ month ∧ month ≤ 12)
    (hday : 1 ≤ day ∧ day ≤ 31) :
    365 * (year + 4799) + 307 ≤ 365 * marchYear year month + marchDay month day ∧
      365 * marchYear year month + marchDay month day ≤ 365 * (year + 4800) + 306 := by
  unfold marchYear marchDay
  split <;> omega

theorem canCount_julian_of_year (hmonth : 1 ≤ label.month ∧ label.month ≤ 12)
    (hday : 1 ≤ label.day ∧ label.day ≤ 31) (hlow : -5879488 ≤ label.year)
    (hhigh : label.year ≤ 5874688) : Reckoning.julian.CanCount label := by
  obtain ⟨hyear, hyear'⟩ := marchYear_bounds label.year label.month
  obtain ⟨hfirst, hlast⟩ := days_of_year_bounds label.year hmonth hday
  rw [canCount_julian_iff hday.2]
  simp only [dayNumber_eq, beforeMarch, julianEpoch]
  omega

/-- No supported date has a label so far away. -/
theorem not_supported_of_distant (hnames : label.NamesDay r)
    (hfar : label.year < -300000 ∨ 300000 < label.year) :
    ¬(⟨r.dayNumber label⟩ : CivilDate).Supported := by
  intro hsupported
  have hlabel : r.label ⟨r.dayNumber label⟩ = label := label_eq_iff.2 ⟨hnames, rfl⟩
  obtain ⟨hfirst, hlast⟩ := r.year_bounds_of_supported hsupported
  rw [hlabel] at hfirst hlast
  omega

theorem toCivil_eq_noSuchDate_of_distant (hmonth : 1 ≤ label.month ∧ label.month ≤ 12)
    (hday : 1 ≤ label.day ∧ label.day ≤ 31) (hcount : label.NamesDay r → r.CanCount label)
    (hfar : label.year < -300000 ∨ 300000 < label.year) :
    r.toCivil label = .error (.noSuchDate label r) := by
  rw [toCivil, if_neg (not_not_intro hmonth), if_neg (not_not_intro hday)]
  split
  · rfl
  · next hlength =>
    have hnames : label.NamesDay r := ⟨hmonth.1, hmonth.2, hday.1, by omega⟩
    rw [if_neg (not_not_intro (hcount hnames))]
    exact if_neg (not_supported_of_distant hnames hfar)

theorem toCivil_eq_pastLastDate (hnames : label.NamesDay r) (hcount : ¬r.CanCount label) :
    r.toCivil label = .error .pastLastDate := by
  obtain ⟨hmonth, hmonth', hday, hlength⟩ := hnames
  have hday' : label.day ≤ 31 := Nat.le_trans hlength (r.daysInMonth_le _ _)
  rw [toCivil, if_neg (not_not_intro ⟨hmonth, hmonth'⟩), if_neg (not_not_intro ⟨hday, hday'⟩),
    if_neg (by omega), if_pos hcount]

/-- More than 300000 years away no label converts. The Gregorian reckoning refuses it. So does the
Julian one unless the label names a day to which it cannot count; there it stops. -/
theorem toCivil_of_distantYear (hmonth : 1 ≤ label.month ∧ label.month ≤ 12)
    (hday : 1 ≤ label.day ∧ label.day ≤ 31)
    (hfar : label.year < -300000 ∨ 300000 < label.year) :
    Reckoning.gregorian.toCivil label = .error (.noSuchDate label .gregorian) ∧
      ((label.NamesDay .julian → Reckoning.julian.CanCount label) →
        Reckoning.julian.toCivil label = .error (.noSuchDate label .julian)) ∧
      (label.NamesDay .julian → ¬Reckoning.julian.CanCount label →
        Reckoning.julian.toCivil label = .error .pastLastDate) ∧
      (Reckoning.julian.CanCount label ↔
        -2147483648 ≤ Reckoning.julian.dayNumber label ∧
          Reckoning.julian.dayNumber label ≤ 2145730139) ∧
      (-5879488 ≤ label.year → label.year ≤ 5874688 → Reckoning.julian.CanCount label) := by
  refine ⟨?_, ?_, toCivil_eq_pastLastDate, canCount_julian_iff hday.2,
    canCount_julian_of_year hmonth hday⟩
  · exact toCivil_eq_noSuchDate_of_distant hmonth hday (fun _ => trivial) hfar
  · intro hcount
    exact toCivil_eq_noSuchDate_of_distant hmonth hday hcount hfar

/-- The Julian count breaks off at 16 December 5874689. -/
theorem toCivil_of_distantYear_lastDay :
    Reckoning.julian.toCivil ⟨5874689, 12, 15⟩ =
        .error (.noSuchDate ⟨5874689, 12, 15⟩ .julian) ∧
      Reckoning.julian.toCivil ⟨5874689, 12, 16⟩ = .error .pastLastDate := by
  have hnames : (⟨5874689, 12, 16⟩ : Label).NamesDay .julian :=
    ⟨by decide, by decide, by decide, by decide⟩
  obtain ⟨-, hrefused, -⟩ := @toCivil_of_distantYear ⟨5874689, 12, 15⟩ (by decide) (by decide)
    (by decide)
  obtain ⟨-, -, hstops, -⟩ := @toCivil_of_distantYear ⟨5874689, 12, 16⟩ (by decide) (by decide)
    (by decide)
  exact ⟨hrefused fun _ => by decide, hstops hnames (by decide)⟩

/-- 1 January 11761000 of the Julian calendar names a day, and yet it is not refused. -/
theorem not_toCivil_eq_noSuchDate_distantYear :
    (⟨11761000, 1, 1⟩ : Label).NamesDay .julian ∧
      Reckoning.julian.toCivil ⟨11761000, 1, 1⟩ ≠
        .error (.noSuchDate ⟨11761000, 1, 1⟩ .julian) ∧
      Reckoning.julian.toCivil ⟨11761000, 1, 1⟩ = .error .pastLastDate := by
  have hnames : (⟨11761000, 1, 1⟩ : Label).NamesDay .julian :=
    ⟨by decide, by decide, by decide, by decide⟩
  have hstops := toCivil_eq_pastLastDate hnames (by decide)
  refine ⟨hnames, ?_, hstops⟩
  rw [hstops]
  intro h
  cases h

end Typikon.Reckoning
