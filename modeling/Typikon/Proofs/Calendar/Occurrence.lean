import Typikon.Proofs.Calendar.Recurrence

/-!
The next occurrence of a month and day. From a reference date on it is the earliest date with them,
and it comes in the year of the reference or one of the eight years after it, if at all. So the
years that are tried are enough, unless they run past the last liturgical year.
-/

namespace Typikon

namespace Reckoning

variable {r : Reckoning} {month day : Nat} {reference date : CivilDate}

/-- The dates with a month and day, from a reference date on, in the years from its own to 9999. -/
def occurrences (r : Reckoning) (month day : Nat) (reference : CivilDate) : Set CivilDate :=
  {date | reference ≤ date ∧ ∃ year, (r.label reference).year ≤ year ∧ year ≤ 9999 ∧
    r.toCivil ⟨year, month, day⟩ = .ok date}

/-- What is wrong with a month and day that do not occur from a year on: the month, or else the day,
or else that none of nine years has them, unless these run past the year 9999. -/
def occurrenceError (r : Reckoning) (month day : Nat) (year : Int) : CalendarError :=
  if ¬(1 ≤ month ∧ month ≤ 12) then .monthOutOfRange month
  else if ¬(1 ≤ day ∧ day ≤ 31) then .dayOutOfRange day
  else if year + 8 ≤ 9999 then .noSuchDate ⟨year, month, day⟩ r
  else .yearOutOfRange 10000

theorem mem_occurrences_iff (hyear : IsLiturgicalYear (r.label reference).year) :
    date ∈ r.occurrences month day reference ↔ reference ≤ date ∧
      (r.label date).month = month ∧ (r.label date).day = day ∧ (r.label date).year ≤ 9999 := by
  have hlow := hyear.1
  constructor
  · rintro ⟨hreference, year, hstart, hend, hdate⟩
    have hlabel := (toCivil_eq_ok_iff_label_eq.1 hdate).2
    rw [hlabel]
    exact ⟨hreference, rfl, rfl, hend⟩
  · rintro ⟨hreference, rfl, rfl, hend⟩
    have hstart := r.year_mono hreference
    have hsupported : date.Supported := supported_of_isLiturgicalYear ⟨by omega, hend⟩
    exact ⟨hreference, _, hstart, hend, toCivil_eq_ok_iff_label_eq.2 ⟨hsupported, rfl⟩⟩

theorem comes_iff_nonempty (hyear : IsLiturgicalYear (r.label reference).year) :
    r.Comes month day reference ↔ (r.occurrences month day reference).Nonempty :=
  exists_congr fun _ => (mem_occurrences_iff hyear).symm

theorem IsNext.isLeast (h : r.IsNext month day reference date)
    (hyear : IsLiturgicalYear (r.label reference).year) (hend : (r.label date).year ≤ 9999) :
    IsLeast (r.occurrences month day reference) date := by
  refine ⟨(mem_occurrences_iff hyear).2 ⟨h.reference_le, h.month_eq, h.day_eq, hend⟩, ?_⟩
  intro other hother
  obtain ⟨hreference, hmonth, hday, -⟩ := (mem_occurrences_iff hyear).1 hother
  exact h.first other hmonth hday hreference

theorem IsNext.year_le (h : r.IsNext month day reference date) :
    (r.label date).year ≤ (r.label reference).year + 8 := by
  have hlabel : r.label date = ⟨(r.label date).year, month, day⟩ := by
    rw [← h.month_eq, ← h.day_eq]
  obtain ⟨later, other, -, hlater, hother, hreference⟩ :=
    exists_date_within (exists_label_eq_iff.1 ⟨date, hlabel⟩) reference
  have hfirst := r.year_mono (h.first other (by rw [hother]) (by rw [hother]) hreference)
  rw [hother] at hfirst
  dsimp only at hfirst
  omega

end Reckoning

namespace LiturgicalDay

variable {r : Reckoning} {month day : Nat} {reference : CivilDate}

/-! ### Where none comes -/

theorem ofMonthDay_of_not_month (hyear : IsLiturgicalYear (r.label reference).year)
    (h : ¬(1 ≤ month ∧ month ≤ 12)) :
    ofMonthDay r month day reference = .error (.monthOutOfRange month) := by
  have hfirst : dateOfLabel r ⟨(r.label reference).year, month, day⟩ =
      .error (.monthOutOfRange month) := by
    rw [dateOfLabel, if_pos hyear, Reckoning.toCivil, if_pos h]
  rw [ofMonthDay, years_succ, nextDate, hfirst]
  rfl

theorem ofMonthDay_of_not_day (hyear : IsLiturgicalYear (r.label reference).year)
    (hmonth : 1 ≤ month ∧ month ≤ 12) (h : ¬(1 ≤ day ∧ day ≤ 31)) :
    ofMonthDay r month day reference = .error (.dayOutOfRange day) := by
  have hfirst : dateOfLabel r ⟨(r.label reference).year, month, day⟩ =
      .error (.dayOutOfRange day) := by
    rw [dateOfLabel, if_pos hyear, Reckoning.toCivil, if_neg (not_not_intro hmonth), if_pos h]
  rw [ofMonthDay, years_succ, nextDate, hfirst]
  rfl

/-- Once a year without the day is noted, more of them change nothing. -/
theorem nextDate_of_forall_noSuchDate {years : List Int}
    (h : ∀ year ∈ years,
      dateOfLabel r ⟨year, month, day⟩ = .error (.noSuchDate ⟨year, month, day⟩ r))
    (missing : CalendarError) :
    nextDate r month day reference years (some missing) = .error missing := by
  induction years with
  | nil => rfl
  | cons year years ih =>
    rw [nextDate, h year List.mem_cons_self]
    exact ih fun other hother => h other (List.mem_cons_of_mem year hother)

/-- If no year has the day and all that are tried are liturgical ones, the first of them is told. -/
theorem ofMonthDay_of_forall_not_namesDay (hyear : IsLiturgicalYear (r.label reference).year)
    (hmonth : 1 ≤ month ∧ month ≤ 12) (hday : 1 ≤ day ∧ day ≤ 31)
    (hnone : ∀ year, ¬(⟨year, month, day⟩ : Label).NamesDay r)
    (hend : (r.label reference).year + 8 ≤ 9999) :
    ofMonthDay r month day reference =
      .error (.noSuchDate ⟨(r.label reference).year, month, day⟩ r) := by
  have hlow := hyear.1
  have hmissing (year : Int) (hyear : IsLiturgicalYear year) :
      dateOfLabel r ⟨year, month, day⟩ = .error (.noSuchDate ⟨year, month, day⟩ r) := by
    refine (dateOfLabel_eq_ok_or_noSuchDate hyear hmonth hday).resolve_left ?_
    rintro ⟨date, hdate⟩
    obtain ⟨-, hlabel⟩ := dateOfLabel_eq_ok_iff.1 hdate
    exact hnone year (Reckoning.exists_label_eq_iff.1 ⟨date, hlabel⟩)
  have hrest : ∀ year ∈ (List.range 8).map fun (n : Nat) => (r.label reference).year + 1 + n,
      dateOfLabel r ⟨year, month, day⟩ = .error (.noSuchDate ⟨year, month, day⟩ r) := by
    intro year hmem
    obtain ⟨n, hn, rfl⟩ := List.mem_map.1 hmem
    rw [List.mem_range] at hn
    exact hmissing _ ⟨by omega, by omega⟩
  rw [ofMonthDay, years_succ, nextDate, hmissing _ hyear]
  dsimp only [Option.none_or]
  rw [nextDate_of_forall_noSuchDate hrest]
  rfl

/-- A search in which no date is found ends with the first year after the liturgical ones. -/
theorem nextDate_eq_yearOutOfRange (hmonth : 1 ≤ month ∧ month ≤ 12) (hday : 1 ≤ day ∧ day ≤ 31)
    {start : Int} (hstart : 1583 ≤ start) (hlast : start ≤ 10000)
    (hnone : ∀ date, reference ≤ date → (r.label date).month = month →
      (r.label date).day = day → ¬(r.label date).year ≤ 9999) {count : Nat}
    (hend : 10000 < start + count) (missing : Option CalendarError) :
    nextDate r month day reference ((List.range count).map fun (n : Nat) => start + n) missing =
      .error (.yearOutOfRange 10000) := by
  induction count generalizing start missing with
  | zero =>
    rw [Int.natCast_zero, Int.add_zero] at hend
    omega
  | succ count ih =>
    rw [years_succ, nextDate]
    rcases Int.lt_or_eq_of_le hlast with hearlier | rfl
    · have hyear : IsLiturgicalYear start := ⟨hstart, by omega⟩
      have hrest (missing' : Option CalendarError) :
          nextDate r month day reference
            ((List.range count).map fun (n : Nat) => start + 1 + n) missing' =
              .error (.yearOutOfRange 10000) :=
        ih (by omega) (by omega) (by push_cast at hend; omega) missing'
      have hcases : (∃ found, dateOfLabel r ⟨start, month, day⟩ = .ok found) ∨
          dateOfLabel r ⟨start, month, day⟩ = .error (.noSuchDate ⟨start, month, day⟩ r) :=
        dateOfLabel_eq_ok_or_noSuchDate hyear hmonth hday
      rcases hcases with ⟨found, hfound⟩ | hmissing
      · obtain ⟨-, hlabel⟩ := dateOfLabel_eq_ok_iff.1 hfound
        have hbefore : ¬reference ≤ found := fun hreference =>
          hnone found hreference (by rw [hlabel]) (by rw [hlabel]) (by rw [hlabel]; exact hyear.2)
        rw [hfound]
        exact (if_neg hbefore).trans (hrest missing)
      · rw [hmissing]
        exact hrest _
    · have hpast : dateOfLabel r ⟨10000, month, day⟩ = .error (.yearOutOfRange 10000) :=
        if_neg (show ¬IsLiturgicalYear 10000 by decide)
      rw [hpast]

theorem ofMonthDay_of_not_nonempty (hyear : IsLiturgicalYear (r.label reference).year)
    (hnone : ¬(r.occurrences month day reference).Nonempty) :
    ofMonthDay r month day reference =
      .error (r.occurrenceError month day (r.label reference).year) := by
  rw [Reckoning.occurrenceError]
  by_cases hmonth : 1 ≤ month ∧ month ≤ 12
  · by_cases hday : 1 ≤ day ∧ day ≤ 31
    · rw [if_neg (not_not_intro hmonth), if_neg (not_not_intro hday)]
      rw [← Reckoning.comes_iff_nonempty hyear] at hnone
      by_cases hend : (r.label reference).year + 8 ≤ 9999
      · rw [if_pos hend]
        refine ofMonthDay_of_forall_not_namesDay hyear hmonth hday (fun year hnames => ?_) hend
        obtain ⟨later, date, -, hlater, hlabel, hreference⟩ :=
          Reckoning.exists_date_within hnames reference
        exact hnone ⟨date, hreference, by rw [hlabel], by rw [hlabel], by
          rw [hlabel]
          dsimp only
          omega⟩
      · rw [if_neg hend, ofMonthDay, nextDate_eq_yearOutOfRange hmonth hday hyear.1
          (by have hlast := hyear.2; omega)
          (fun date hreference hmonth' hday' hyear' =>
            hnone ⟨date, hreference, hmonth', hday', hyear'⟩)
          (by omega) none]
        rfl
    · rw [if_neg (not_not_intro hmonth), if_pos hday]
      exact ofMonthDay_of_not_day hyear hmonth hday
  · rw [if_pos hmonth]
    exact ofMonthDay_of_not_month hyear hmonth

/-! ### The next one -/

theorem exists_isLeast_occurrences (hyear : IsLiturgicalYear (r.label reference).year)
    (h : (r.occurrences month day reference).Nonempty) :
    ∃ next d, IsLeast (r.occurrences month day reference) next ∧
      (r.label next).year ≤ (r.label reference).year + 8 ∧
      ofMonthDay r month day reference = .ok d ∧ ofDate r next = .ok d := by
  obtain ⟨d, hd⟩ := exists_ofMonthDay_iff.2 ⟨hyear, (Reckoning.comes_iff_nonempty hyear).2 h⟩
  obtain ⟨next, hnext, hdate⟩ := exists_of_ofMonthDay hd
  have hend := (exists_ofDate_eq_ok_iff.1 ⟨d, hdate⟩).2
  exact ⟨next, d, hnext.isLeast hyear hend, hnext.year_le, hd, hdate⟩

/-- A month and day without a year name the earliest date with them from a reference date on, if one
comes by the end of 9999, and are refused if none does. It comes within eight years whenever some
year has it. If none has, the year of the reference is told as one without it, as long as all nine
that are tried are liturgical years. -/
theorem ofMonthDay_finds_next_occurrence (hyear : IsLiturgicalYear (r.label reference).year) :
    ((r.occurrences month day reference).Nonempty →
      ∃ next d, IsLeast (r.occurrences month day reference) next ∧
        (r.label next).year ≤ (r.label reference).year + 8 ∧
        ofMonthDay r month day reference = .ok d ∧ ofDate r next = .ok d) ∧
      (¬(r.occurrences month day reference).Nonempty →
        ofMonthDay r month day reference =
          .error (r.occurrenceError month day (r.label reference).year)) ∧
      (∀ year, (⟨year, month, day⟩ : Label).NamesDay r →
        ∃ later date, later ≤ (r.label reference).year + 8 ∧ r.label date = ⟨later, month, day⟩ ∧
          reference ≤ date) ∧
      (1 ≤ month → month ≤ 12 → 1 ≤ day → day ≤ 31 →
        (∀ year, ¬(⟨year, month, day⟩ : Label).NamesDay r) → (r.label reference).year ≤ 9991 →
        ofMonthDay r month day reference =
          .error (.noSuchDate ⟨(r.label reference).year, month, day⟩ r)) := by
  refine ⟨exists_isLeast_occurrences hyear, ofMonthDay_of_not_nonempty hyear, ?_, ?_⟩
  · intro year hnames
    obtain ⟨later, date, -, hlater, hlabel, hreference⟩ :=
      Reckoning.exists_date_within hnames reference
    exact ⟨later, date, hlater, hlabel, hreference⟩
  · intro hmonth hmonth' hday hday' hnone hend
    exact ofMonthDay_of_forall_not_namesDay hyear ⟨hmonth, hmonth'⟩ ⟨hday, hday'⟩ hnone (by omega)

/-- From 1 March 1896 of the Gregorian reckoning on, the next 29 February is in 1904. -/
theorem ofMonthDay_finds_next_occurrence_century :
    Reckoning.gregorian.label ⟨692195⟩ = ⟨1896, 3, 1⟩ ∧
      ∃ d, ofMonthDay .gregorian 2 29 ⟨692195⟩ = .ok d ∧ d.year = 1904 ∧
        IsLeast (Reckoning.gregorian.occurrences 2 29 ⟨692195⟩) d.date := by
  have hlabel : Reckoning.gregorian.label ⟨692195⟩ = ⟨1896, 3, 1⟩ := rfl
  have hyear : IsLiturgicalYear (Reckoning.gregorian.label ⟨692195⟩).year := by decide
  have hcomes : (⟨695115⟩ : CivilDate) ∈ Reckoning.gregorian.occurrences 2 29 ⟨692195⟩ :=
    (Reckoning.mem_occurrences_iff hyear).2 (by decide)
  obtain ⟨next, d, hleast, -, hd, hdate⟩ :=
    (ofMonthDay_finds_next_occurrence hyear).1 ⟨_, hcomes⟩
  refine ⟨hlabel, d, hd, ?_, (isOfDate_of_ofDate hdate).date_eq.symm ▸ hleast⟩
  cases hd
  rfl

end LiturgicalDay

end Typikon
