import Typikon.Proofs.Calendar.Labels

/-!
Liturgical days of labels. A month and day without a year name the first date with them from a
reference date on: the years are tried one after another from that of the reference date, and a year
before it, or one that is passed over, has no such date.
-/

namespace Typikon

namespace Reckoning

theorem newYear_mono (r : Reckoning) {y z : Int} (h : y ≤ z) : r.newYear y ≤ r.newYear z := by
  have hmarch := r.beforeMarch_mono (Int.add_le_add_right h 4799)
  unfold newYear
  omega

theorem year_mono (r : Reckoning) {a b : CivilDate} (h : a ≤ b) :
    (r.label a).year ≤ (r.label b).year := by
  obtain ⟨hstart, -⟩ := r.newYear_le_and_lt a
  obtain ⟨-, hend⟩ := r.newYear_le_and_lt b
  rw [CivilDate.le_iff] at h
  rcases Int.lt_or_le (r.label b).year (r.label a).year with hlater | hle
  · have hyears := r.newYear_mono (Int.add_one_le_of_lt hlater)
    omega
  · exact hle

theorem year_eq_of_newYear {r : Reckoning} {date : CivilDate} {year : Int}
    (hstart : r.newYear year ≤ date.dayNumber) (hend : date.dayNumber < r.newYear (year + 1)) :
    (r.label date).year = year := by
  obtain ⟨hstart', hend'⟩ := r.newYear_le_and_lt date
  rcases Int.lt_trichotomy (r.label date).year year with hlt | heq | hgt
  · have hyears := r.newYear_mono (Int.add_one_le_of_lt hlt)
    omega
  · exact heq
  · have hyears := r.newYear_mono (Int.add_one_le_of_lt hgt)
    omega

/-- Of dates with the same month and day, that of a later year is later. -/
theorem le_of_year_le {r : Reckoning} {a b : CivilDate} {year year' : Int} {month day : Nat}
    (ha : r.label a = ⟨year, month, day⟩) (hb : r.label b = ⟨year', month, day⟩)
    (h : year ≤ year') : a ≤ b := by
  obtain ⟨-, haDay⟩ := label_eq_iff.1 ha
  obtain ⟨-, hbDay⟩ := label_eq_iff.1 hb
  have hmarch : marchYear year month ≤ marchYear year' month := by
    unfold marchYear
    omega
  have hstart := r.beforeMarch_mono hmarch
  rw [CivilDate.le_iff, haDay, hbDay, dayNumber_eq, dayNumber_eq]
  exact Int.add_le_add_right hstart _

/-- The dates of these years are far inside the supported ones. -/
theorem dayNumber_bounds_of_year (r : Reckoning) (date : CivilDate)
    (hlow : 0 ≤ (r.label date).year) (hhigh : (r.label date).year ≤ 10000) :
    -1000 ≤ date.dayNumber ∧ date.dayNumber ≤ 4000000 := by
  obtain ⟨hstart, hend⟩ := r.newYear_le_and_lt date
  generalize (r.label date).year = year at *
  cases r with
  | gregorian | julian =>
    simp only [newYear, beforeMarch, gregorianEpoch, julianEpoch] at hstart hend
    omega

theorem supported_of_isLiturgicalYear {r : Reckoning} {date : CivilDate}
    (h : IsLiturgicalYear (r.label date).year) : date.Supported := by
  obtain ⟨hlow, hhigh⟩ := h
  obtain ⟨hfirst, hlast⟩ := r.dayNumber_bounds_of_year date (by omega) (by omega)
  exact ⟨by omega, by omega⟩

theorem exists_toCivil_eq_ok {r : Reckoning} {label : Label} (hnames : label.NamesDay r)
    (hlow : 0 ≤ label.year) (hhigh : label.year ≤ 10000) :
    ∃ date, r.toCivil label = .ok date ∧ r.label date = label := by
  obtain ⟨date, hlabel⟩ := exists_label_eq_iff.2 hnames
  obtain ⟨hfirst, hlast⟩ :=
    r.dayNumber_bounds_of_year date (hlabel.symm ▸ hlow) (hlabel.symm ▸ hhigh)
  have hsupported : date.Supported := ⟨by omega, by omega⟩
  exact ⟨date, toCivil_eq_ok_iff_label_eq.2 ⟨hsupported, hlabel⟩, hlabel⟩

/-- A date is the first one from a reference date on that has a month and day. -/
structure IsNext (r : Reckoning) (month day : Nat) (reference date : CivilDate) : Prop where
  month_eq : (r.label date).month = month
  day_eq : (r.label date).day = day
  reference_le : reference ≤ date
  first : ∀ other, (r.label other).month = month → (r.label other).day = day →
    reference ≤ other → date ≤ other

end Reckoning

namespace LiturgicalDay

variable {r : Reckoning} {d : LiturgicalDay}

/-- The liturgical day of a date has its label, in the same reckoning. -/
structure IsOfDate (d : LiturgicalDay) (r : Reckoning) (date : CivilDate) : Prop where
  reckoning_eq : d.reckoning = r
  date_eq : d.date = date
  label_eq : (⟨d.year, d.month, d.day⟩ : Label) = r.label date

theorem isOfDate_of_ofDate {date : CivilDate} (h : ofDate r date = .ok d) : d.IsOfDate r date := by
  unfold ofDate at h
  dsimp only at h
  split at h
  · cases hanchors : Anchors.ofYear r (r.label date).year with
    | error e =>
      rw [hanchors] at h
      cases h
    | ok anchors =>
      rw [hanchors] at h
      cases h
      exact ⟨rfl, rfl, rfl⟩
  · cases h

theorem dateOfLabel_eq_ok_iff {label : Label} {date : CivilDate} :
    dateOfLabel r label = .ok date ↔ IsLiturgicalYear label.year ∧ r.label date = label := by
  unfold dateOfLabel
  by_cases hyear : IsLiturgicalYear label.year
  · rw [if_pos hyear, Reckoning.toCivil_eq_ok_iff_label_eq]
    refine ⟨fun h => ⟨hyear, h.2⟩, fun h => ⟨?_, h.2⟩⟩
    exact Reckoning.supported_of_isLiturgicalYear (h.2 ▸ hyear)
  · rw [if_neg hyear]
    exact iff_of_false nofun fun h => hyear h.1

theorem isLiturgicalYear_of_dateOfLabel_eq_noSuchDate {label missing : Label} {r' : Reckoning}
    (h : dateOfLabel r label = .error (.noSuchDate missing r')) : IsLiturgicalYear label.year := by
  unfold dateOfLabel at h
  split at h
  next hyear => exact hyear
  · cases h

theorem exists_of_ofLabel {label : Label} (h : ofLabel r label = .ok d) :
    ∃ date, r.label date = label ∧ ofDate r date = .ok d := by
  unfold ofLabel at h
  cases hdate : dateOfLabel r label with
  | error e =>
    rw [hdate] at h
    cases h
  | ok date =>
    rw [hdate] at h
    exact ⟨date, (dateOfLabel_eq_ok_iff.1 hdate).2, h⟩

/-- The years that are tried are a first one and those that follow it. -/
theorem years_succ (start : Int) (count : Nat) :
    (List.range (count + 1)).map (fun (n : Nat) => start + n) =
      start :: (List.range count).map fun (n : Nat) => start + 1 + n := by
  rw [List.range_succ_eq_map, List.map_cons, List.map_map]
  refine List.cons_eq_cons.2 ⟨by simp, List.map_congr_left fun n _ => ?_⟩
  simp only [Function.comp_apply]
  omega

/-- The date that is found has its month and day in one of the years that are tried, and no date
with them in an earlier one of these comes after the reference date. -/
theorem exists_of_nextDate {month day : Nat} {reference date : CivilDate} {count : Nat}
    {start : Int} {missing : Option CalendarError}
    (h : nextDate r month day reference ((List.range count).map fun (n : Nat) => start + n)
      missing = .ok date) :
    ∃ year, start ≤ year ∧ r.label date = ⟨year, month, day⟩ ∧ reference ≤ date ∧
      ∀ earlier other, start ≤ earlier → earlier < year → r.label other = ⟨earlier, month, day⟩ →
        ¬reference ≤ other := by
  induction count generalizing start missing with
  | zero => cases missing <;> cases h
  | succ count ih =>
    -- In the first year there is no date that comes after the reference date, or else it is found.
    have hskip : ∀ missing', (∀ other, r.label other = ⟨start, month, day⟩ → ¬reference ≤ other) →
        nextDate r month day reference ((List.range count).map fun (n : Nat) => start + 1 + n)
          missing' = .ok date →
        ∃ year, start ≤ year ∧ r.label date = ⟨year, month, day⟩ ∧ reference ≤ date ∧
          ∀ earlier other, start ≤ earlier → earlier < year →
            r.label other = ⟨earlier, month, day⟩ → ¬reference ≤ other := by
      intro missing' hnone hrest
      obtain ⟨year, hyear, hlabel, hreference, hearlier⟩ := ih hrest
      refine ⟨year, by omega, hlabel, hreference, ?_⟩
      intro earlier other hstart hlt hother
      by_cases hfirst : earlier = start
      · exact hnone other (hfirst ▸ hother)
      · exact hearlier earlier other (by omega) hlt hother
    rw [years_succ] at h
    unfold nextDate at h
    split at h
    next found hfound =>
      obtain ⟨hyear, hlabel⟩ := dateOfLabel_eq_ok_iff.1 hfound
      split at h
      next hreference =>
        cases h
        exact ⟨start, Int.le_refl start, hlabel, hreference, fun earlier _ _ _ => by omega⟩
      next hbefore =>
        refine hskip missing (fun other hother => ?_) h
        obtain rfl : found = other :=
          Except.ok.inj (hfound.symm.trans (dateOfLabel_eq_ok_iff.2 ⟨hyear, hother⟩))
        exact hbefore
    next label r' hmissing =>
      refine hskip _ (fun other hother => ?_) h
      have hyear := isLiturgicalYear_of_dateOfLabel_eq_noSuchDate hmissing
      rw [dateOfLabel_eq_ok_iff.2 ⟨hyear, hother⟩] at hmissing
      cases hmissing
    · cases h

/-- The liturgical day of a month and day without a year is that of the next date with them. -/
theorem exists_of_ofMonthDay {month day : Nat} {reference : CivilDate}
    (h : ofMonthDay r month day reference = .ok d) :
    ∃ date, r.IsNext month day reference date ∧ ofDate r date = .ok d := by
  unfold ofMonthDay at h
  dsimp only at h
  cases hnext : nextDate r month day reference
      ((List.range 9).map fun (n : Nat) => (r.label reference).year + n) none with
  | error e =>
    rw [hnext] at h
    cases h
  | ok date =>
    rw [hnext] at h
    obtain ⟨year, hyear, hlabel, hreference, hearlier⟩ := exists_of_nextDate hnext
    refine ⟨date, ⟨by rw [hlabel], by rw [hlabel], hreference, ?_⟩, h⟩
    intro other hmonth hday hother
    have hotherLabel : r.label other = ⟨(r.label other).year, month, day⟩ := by
      rw [← hmonth, ← hday]
    by_cases hlater : year ≤ (r.label other).year
    · exact Reckoning.le_of_year_le hlabel hotherLabel hlater
    · exact absurd hother
        (hearlier _ other (r.year_mono hother) (by omega) hotherLabel)

end LiturgicalDay

end Typikon
