import Typikon.Proofs.Calendar.NearestAnchors

/-!
Days that come again. Every day of a year comes again in the next one but 29 February, for which it
takes eight years at most. So a month and day without a year name a liturgical day just if there is
such a day, from the reference date on, in a liturgical year.
-/

namespace Typikon

namespace Reckoning

/-- Two leap years are eight years apart at most, as around 1900 in the Gregorian reckoning. -/
theorem exists_isLeapYear_within (r : Reckoning) (start : Int) :
    ∃ year, start < year ∧ year ≤ start + 8 ∧ r.IsLeapYear year := by
  let fourth := start + (4 - start % 4)
  have hfourth : fourth % 4 = 0 := by omega
  by_cases hleap : r.IsLeapYear fourth
  · exact ⟨fourth, by omega, by omega, hleap⟩
  · cases r with
    | julian => exact absurd hfourth hleap
    | gregorian =>
      refine ⟨fourth + 4, by omega, by omega, ?_⟩
      simp only [IsLeapYear] at hleap ⊢
      omega

theorem exists_namesDay_within {r : Reckoning} {year : Int} {month day : Nat}
    (h : (⟨year, month, day⟩ : Label).NamesDay r) (start : Int) :
    ∃ later, start < later ∧ later ≤ start + 8 ∧ (⟨later, month, day⟩ : Label).NamesDay r := by
  obtain ⟨hmonth, hmonth', hday, hlength⟩ := h
  dsimp only at hmonth hmonth' hday hlength
  by_cases hfebruary : month = 2
  · subst hfebruary
    obtain ⟨later, hlow, hhigh, hleap⟩ := r.exists_isLeapYear_within start
    obtain ⟨-, -, -, hlonger⟩ := namesDay_leapDay_iff.2 hleap
    refine ⟨later, hlow, hhigh, by simp, by simp, hday, ?_⟩
    have hmost := r.daysInMonth_two year
    dsimp only at hlonger ⊢
    split at hmost <;> omega
  · have hsame : r.daysInMonth (start + 1) month = r.daysInMonth year month := by
      unfold daysInMonth
      split <;> first | rfl | exact absurd rfl hfebruary
    exact ⟨start + 1, by omega, by omega, hmonth, hmonth', hday, hsame ▸ hlength⟩

/-- A day that some year has comes again, within eight years of the reference date. -/
theorem exists_date_within {year : Int} (h : (⟨year, month, day⟩ : Label).NamesDay r)
    (reference : CivilDate) :
    ∃ later date, (r.label reference).year < later ∧ later ≤ (r.label reference).year + 8 ∧
      r.label date = ⟨later, month, day⟩ ∧ reference ≤ date := by
  obtain ⟨later, hlow, hhigh, hnames⟩ := exists_namesDay_within h (r.label reference).year
  obtain ⟨date, hdate⟩ := exists_label_eq_iff.2 hnames
  refine ⟨later, date, hlow, hhigh, hdate, ?_⟩
  rcases Int.le_total reference.dayNumber date.dayNumber with hle | hle
  · exact hle
  · have hyears := r.year_mono (CivilDate.le_iff.2 hle)
    rw [hdate] at hyears
    dsimp only at hyears
    omega

/-- A month and day come, from a reference date on, in a year up to 9999. -/
def Comes (r : Reckoning) (month day : Nat) (reference : CivilDate) : Prop :=
  ∃ date, reference ≤ date ∧ (r.label date).month = month ∧ (r.label date).day = day ∧
    (r.label date).year ≤ 9999

end Reckoning

namespace LiturgicalDay

variable {r : Reckoning} {month day : Nat} {reference : CivilDate}

theorem exists_ofLabel_iff {label : Label} :
    (∃ d, ofLabel r label = .ok d) ↔ IsLiturgicalYear label.year ∧ label.NamesDay r := by
  constructor
  · rintro ⟨d, hd⟩
    obtain ⟨date, hlabel, hdate⟩ := exists_of_ofLabel hd
    exact ⟨hlabel ▸ exists_ofDate_eq_ok_iff.1 ⟨d, hdate⟩,
      Reckoning.exists_label_eq_iff.1 ⟨date, hlabel⟩⟩
  · rintro ⟨hyear, hnames⟩
    obtain ⟨date, hlabel⟩ := Reckoning.exists_label_eq_iff.2 hnames
    obtain ⟨d, hd⟩ := exists_ofDate_eq_ok_iff.2 (show IsLiturgicalYear (r.label date).year from
      hlabel.symm ▸ hyear)
    refine ⟨d, ?_⟩
    rw [ofLabel, dateOfLabel_eq_ok_iff.2 ⟨hyear, hlabel⟩]
    exact hd

/-- In a liturgical year a month and day that some month has are those of a date, or else of none,
and are not refused for anything else. -/
theorem dateOfLabel_eq_ok_or_noSuchDate {label : Label} (hyear : IsLiturgicalYear label.year)
    (hmonth : 1 ≤ label.month ∧ label.month ≤ 12) (hday : 1 ≤ label.day ∧ label.day ≤ 31) :
    (∃ date, dateOfLabel r label = .ok date) ∨
      dateOfLabel r label = .error (.noSuchDate label r) := by
  rw [dateOfLabel, if_pos hyear]
  cases hdate : r.toCivil label with
  | ok date => exact .inl ⟨date, rfl⟩
  | error cause =>
    obtain ⟨hlow, hhigh⟩ := hyear
    have hcause := Reckoning.eq_labelError_of_toCivil
      (r.canCount_of_year_bounds (by omega) (by omega)) hdate
    rw [Reckoning.labelError, if_neg (fun h => h hmonth), if_neg (fun h => h hday)] at hcause
    exact .inr (congrArg Except.error hcause)

/-- If one of the years that are tried has a date from the reference date on, a date is found. -/
theorem exists_nextDate_eq_ok {date : CivilDate} {year : Int}
    (hdate : r.label date = ⟨year, month, day⟩) (hreference : reference ≤ date)
    (hhigh : year ≤ 9999) {count : Nat} {start : Int} (hstart : 1583 ≤ start) (hlow : start ≤ year)
    (hend : year < start + count) (missing : Option CalendarError) :
    ∃ found, nextDate r month day reference ((List.range count).map fun (n : Nat) => start + n)
      missing = .ok found := by
  obtain ⟨hmonth, hmonth', hday, hlength⟩ := Reckoning.exists_label_eq_iff.1 ⟨date, hdate⟩
  have hlong := Nat.le_trans hlength (r.daysInMonth_le year month)
  induction count generalizing start missing with
  | zero =>
    rw [Int.natCast_zero, Int.add_zero] at hend
    omega
  | succ count ih =>
    rw [years_succ, nextDate]
    have hyear : IsLiturgicalYear start := ⟨hstart, by omega⟩
    have hrest (h : start ≠ year) (missing' : Option CalendarError) :
        ∃ found, nextDate r month day reference
          ((List.range count).map fun (n : Nat) => start + 1 + n) missing' = .ok found :=
      ih (by omega) (by omega) (by push_cast at hend; omega) missing'
    have hcases : (∃ found, dateOfLabel r ⟨start, month, day⟩ = .ok found) ∨
        dateOfLabel r ⟨start, month, day⟩ = .error (.noSuchDate ⟨start, month, day⟩ r) :=
      dateOfLabel_eq_ok_or_noSuchDate hyear ⟨hmonth, hmonth'⟩ ⟨hday, hlong⟩
    rcases hcases with ⟨found, hfound⟩ | hnone
    · rw [hfound]
      dsimp only
      split
      · exact ⟨found, rfl⟩
      · next hbefore =>
        refine hrest ?_ missing
        rintro rfl
        obtain rfl : found = date := by
          rw [dateOfLabel_eq_ok_iff.2 ⟨hyear, hdate⟩] at hfound
          exact (Except.ok.inj hfound).symm
        exact hbefore hreference
    · rw [hnone]
      refine hrest ?_ _
      rintro rfl
      rw [dateOfLabel_eq_ok_iff.2 ⟨hyear, hdate⟩] at hnone
      cases hnone

/-- The date that is found is one of a liturgical year. -/
theorem isLiturgicalYear_of_nextDate {years : List Int} {missing : Option CalendarError}
    {date : CivilDate} (h : nextDate r month day reference years missing = .ok date) :
    IsLiturgicalYear (r.label date).year := by
  fun_induction nextDate r month day reference years missing with
  | case1 => cases h
  | case2 missing => cases h
  | case3 missing year years found hfound hreference =>
    cases h
    obtain ⟨hyear, hlabel⟩ := dateOfLabel_eq_ok_iff.1 hfound
    exact hlabel ▸ hyear
  | case4 missing year years found hfound hbefore ih => exact ih h
  | case5 missing year years label r' hnone ih => exact ih h
  | case6 missing year years cause hother hcause => cases h

/-- A month and day without a year name a liturgical day if they come in some liturgical year, from
the reference date on. -/
theorem exists_ofMonthDay_iff :
    (∃ d, ofMonthDay r month day reference = .ok d) ↔
      IsLiturgicalYear (r.label reference).year ∧ r.Comes month day reference := by
  constructor
  · rintro ⟨d, hd⟩
    obtain ⟨date, hnext, hdate⟩ := exists_of_ofMonthDay hd
    have hyear := exists_ofDate_eq_ok_iff.1 ⟨d, hdate⟩
    refine ⟨?_, date, hnext.reference_le, hnext.month_eq, hnext.day_eq, hyear.2⟩
    refine Decidable.of_not_not fun hreference => ?_
    have hfirst : dateOfLabel r ⟨(r.label reference).year, month, day⟩ =
        .error (.yearOutOfRange (r.label reference).year) := if_neg hreference
    rw [ofMonthDay, years_succ, nextDate, hfirst] at hd
    cases hd
  · rintro ⟨hyear, date, hreference, hmonth, hday, hhigh⟩
    have hlabel : r.label date = ⟨(r.label date).year, month, day⟩ := by rw [← hmonth, ← hday]
    have hle := r.year_mono hreference
    obtain ⟨found, hfound⟩ : ∃ found, nextDate r month day reference
        ((List.range 9).map fun (n : Nat) => (r.label reference).year + n) none = .ok found := by
      by_cases hnear : (r.label date).year ≤ (r.label reference).year + 8
      · exact exists_nextDate_eq_ok hlabel hreference hhigh hyear.1 hle (by omega) none
      · obtain ⟨later, other, hlow, hlater, hother, hafter⟩ := Reckoning.exists_date_within
          (Reckoning.exists_label_eq_iff.1 ⟨date, hlabel⟩) reference
        exact exists_nextDate_eq_ok hother hafter (by omega) hyear.1 (by omega) (by omega) none
    obtain ⟨d, hd⟩ := exists_ofDate_eq_ok_iff.2 (isLiturgicalYear_of_nextDate hfound)
    refine ⟨d, ?_⟩
    rw [ofMonthDay, hfound]
    exact hd

end LiturgicalDay

end Typikon
