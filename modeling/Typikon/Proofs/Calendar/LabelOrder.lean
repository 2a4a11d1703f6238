import Mathlib.Data.Prod.Lex
import Mathlib.Data.Set.Defs
import Mathlib.Order.Monotone.Basic
import Typikon.Proofs.Calendar.Labels

/-!
Labels follow one another as the calendar goes. The next day has the next day of the month, or else
the first of the next month, or else the first of the next year, in either reckoning and however far
away the year is. So labels grow with dates, by year, month and day, and so do the dates that labels
convert to.
-/

namespace Typikon

namespace Label

/-- The year, and after it the month, and after it the day. -/
def key (label : Label) : ℤ ×ₗ ℕ ×ₗ ℕ :=
  toLex (label.year, toLex (label.month, label.day))

instance : Preorder Label :=
  letI : Preorder ℤ := Int.instLinearOrder.toPartialOrder.toPreorder
  Preorder.lift key

theorem lt_iff {a b : Label} :
    a < b ↔ a.year < b.year ∨
      a.year = b.year ∧ (a.month < b.month ∨ a.month = b.month ∧ a.day < b.day) := by
  change a.key < b.key ↔ _
  simp only [key, Prod.Lex.toLex_lt_toLex]

/-- The label that follows in the calendar. -/
def next (label : Label) (r : Reckoning) : Label :=
  if label.day < r.daysInMonth label.year label.month then
    ⟨label.year, label.month, label.day + 1⟩
  else if label.month < 12 then ⟨label.year, label.month + 1, 1⟩
  else ⟨label.year + 1, 1, 1⟩

theorem lt_next (label : Label) (r : Reckoning) : label < label.next r := by
  unfold next
  split
  · exact lt_iff.mpr (.inr ⟨rfl, .inr ⟨rfl, Nat.lt_succ_self _⟩⟩)
  · split
    · exact lt_iff.mpr (.inr ⟨rfl, .inl (Nat.lt_succ_self _)⟩)
    · exact lt_iff.mpr (.inl (Int.lt_succ _))

end Label

namespace Reckoning

theorem namesDay_label (r : Reckoning) (date : CivilDate) : (r.label date).NamesDay r :=
  (label_eq_iff.mp rfl).1

theorem dayNumber_label (r : Reckoning) (date : CivilDate) :
    r.dayNumber (r.label date) = date.dayNumber :=
  (label_eq_iff.mp rfl).2.symm

/-- The first of a month comes right after the last day of the month before. Between February and
March a year that begins on 1 March ends. -/
theorem dayNumber_firstOfMonth (r : Reckoning) (year : Int) {month : Nat} (hlow : 1 ≤ month)
    (hhigh : month < 12) :
    r.dayNumber ⟨year, month + 1, 1⟩ = r.dayNumber ⟨year, month, r.daysInMonth year month⟩ + 1 := by
  by_cases hmonth : month = 2
  · subst hmonth
    have hyear : marchYear year 3 = marchYear year 2 + 1 := by
      change year + 4800 - 0 = year + 4800 - 1 + 1
      omega
    have hlength := r.beforeMarch_succ (marchYear year 2)
    have hfebruary := r.daysInMonth_two year
    have hlast : marchDay 2 (r.daysInMonth year 2) = 337 + r.daysInMonth year 2 := rfl
    have hfirst : marchDay 3 1 = 1 := rfl
    have hleap : marchYear year 2 - 4800 + 1 = year := by
      change year + 4800 - 1 - 4800 + 1 = year
      omega
    rw [hleap] at hlength
    simp only [dayNumber_eq, hyear, hlast, hfirst]
    omega
  · have hyear : marchYear year (month + 1) = marchYear year month := by
      unfold marchYear
      split <;> split <;> omega
    have hlast := marchDay_daysInMonth r year hlow (by omega) hmonth
    have hfirst : marchDay (month + 1) 1 = marchDay (month + 1) 0 + 1 := rfl
    simp only [dayNumber_eq, hyear, hlast, hfirst]
    omega

theorem dayNumber_newYear (r : Reckoning) (year : Int) :
    r.dayNumber ⟨year + 1, 1, 1⟩ = r.dayNumber ⟨year, 12, r.daysInMonth year 12⟩ + 1 := by
  have hyear : marchYear (year + 1) 1 = marchYear year 12 := by
    change year + 1 + 4800 - 1 = year + 4800 - 0
    omega
  have hlast : marchDay 12 (r.daysInMonth year 12) = 306 := rfl
  have hfirst : marchDay 1 1 = 307 := rfl
  simp only [dayNumber_eq, hyear, hlast, hfirst]
  omega

theorem one_le_daysInMonth (r : Reckoning) (year : Int) (month : Nat) :
    1 ≤ r.daysInMonth year month := by
  unfold daysInMonth
  split
  case h_5 => split <;> omega
  all_goals omega

/-- The next label names a day too, and that is the next day. -/
theorem namesDay_next_and_dayNumber_next {r : Reckoning} {label : Label} (h : label.NamesDay r) :
    (label.next r).NamesDay r ∧ r.dayNumber (label.next r) = r.dayNumber label + 1 := by
  obtain ⟨year, month, day⟩ := label
  obtain ⟨hlow, hhigh, hday, hday'⟩ := h
  dsimp only at *
  unfold Label.next
  dsimp only
  split
  · next hlast =>
    refine ⟨⟨hlow, hhigh, Nat.le_add_left 1 day, hlast⟩, ?_⟩
    simp only [dayNumber_eq, marchDay]
    omega
  · next hlast =>
    obtain rfl : day = r.daysInMonth year month := by omega
    split
    · next hmonth =>
      exact ⟨⟨Nat.le_add_left 1 month, hmonth, Nat.le_refl 1, r.one_le_daysInMonth _ _⟩,
        r.dayNumber_firstOfMonth year hlow hmonth⟩
    · next hmonth =>
      obtain rfl : month = 12 := by omega
      exact ⟨⟨Nat.le_refl 1, (by decide : 1 ≤ 12), Nat.le_refl 1, r.one_le_daysInMonth _ _⟩,
        r.dayNumber_newYear year⟩

theorem label_add_one (r : Reckoning) (date : CivilDate) :
    r.label (date + (1 : Int)) = (r.label date).next r := by
  obtain ⟨hnames, hcount⟩ := namesDay_next_and_dayNumber_next (r.namesDay_label date)
  refine label_eq_iff.mpr ⟨hnames, ?_⟩
  rw [CivilDate.dayNumber_add, ← r.dayNumber_label date, ← hcount]

theorem label_lt_label_iff (r : Reckoning) {a b : CivilDate} :
    r.label a < r.label b ↔ a < b := by
  have hmono : StrictMono fun day : ℤ => r.label ⟨day⟩ := by
    refine strictMono_int_of_lt_succ fun day => ?_
    have hnext : r.label ⟨day + 1⟩ = (r.label ⟨day⟩).next r := r.label_add_one ⟨day⟩
    rw [hnext]
    exact (r.label ⟨day⟩).lt_next r
  exact hmono.lt_iff_lt

/-- The labels that supported dates have. -/
def labels (r : Reckoning) : Set Label :=
  {label | ∃ date : CivilDate, date.Supported ∧ r.label date = label}

/-- Every date has a day of an existing month, and the next date has the next label. Therefore a
date is before another just if its label is, and of two labels that supported dates have, the lower
one converts to the earlier date. -/
theorem label_follows_calendar (r : Reckoning) :
    (∀ date, (r.label date).NamesDay r ∧ r.label (date + (1 : Int)) = (r.label date).next r) ∧
      (∀ a b, a < b ↔ r.label a < r.label b) ∧
      ∀ label ∈ r.labels, ∀ label' ∈ r.labels, ∃ date date',
        r.toCivil label = .ok date ∧ r.toCivil label' = .ok date' ∧
          (label < label' ↔ date < date') := by
  refine ⟨fun date => ⟨r.namesDay_label date, r.label_add_one date⟩,
    fun a b => r.label_lt_label_iff.symm, ?_⟩
  rintro label ⟨date, hdate, rfl⟩ label' ⟨date', hdate', rfl⟩
  exact ⟨date, date', toCivil_label hdate, toCivil_label hdate', r.label_lt_label_iff⟩

/-- Of 29 February and 1 March in the Julian year -4, the first converts to the earlier date. -/
theorem label_follows_calendar_leapDay :
    (⟨-4, 2, 29⟩ : Label) ∈ Reckoning.julian.labels ∧
      (⟨-4, 3, 1⟩ : Label) ∈ Reckoning.julian.labels ∧
      ∃ date date', Reckoning.julian.toCivil ⟨-4, 2, 29⟩ = .ok date ∧
        Reckoning.julian.toCivil ⟨-4, 3, 1⟩ = .ok date' ∧ date < date' := by
  have hleapDay : (⟨-4, 2, 29⟩ : Label) ∈ Reckoning.julian.labels :=
    ⟨⟨-1769⟩, by decide, rfl⟩
  have hmarch : (⟨-4, 3, 1⟩ : Label) ∈ Reckoning.julian.labels := ⟨⟨-1768⟩, by decide, rfl⟩
  obtain ⟨date, date', hdate, hdate', horder⟩ :=
    (label_follows_calendar .julian).2.2 _ hleapDay _ hmarch
  refine ⟨hleapDay, hmarch, date, date', hdate, hdate', horder.mp ?_⟩
  exact Label.lt_iff.mpr (.inr ⟨rfl, .inl (by decide)⟩)

end Reckoning

end Typikon
