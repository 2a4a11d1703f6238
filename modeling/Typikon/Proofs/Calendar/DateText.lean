import Typikon.Calendar.Iso8601
import Typikon.Proofs.Calendar.Labels
import Typikon.Proofs.Text.Trimming
import Typikon.Proofs.Text.Writing

/-!
The text of a date is read back as that date, whatever its year: a year is written in four digits or
with a sign, and either way the hyphen after it ends it. A date outside the supported range has a
text too, but that text is refused.
-/

namespace Typikon

namespace Text

theorem trimLeft_cons_of_not_isBlank {c : Char} (s : List Char) (h : isBlank c = false) :
    trimLeft (c :: s) = c :: s := by
  simp [trimLeft, h]

theorem isBlank_eq_false_of_isDigit {c : Char} (h : c.isDigit = true) : isBlank c = false :=
  isBlank_eq_false_of_isAlphanum (by simp [Char.isAlphanum, h])

theorem trimLeft_padded_append (width n : Nat) (rest : List Char) :
    trimLeft ((Decimal.padded width n).toList ++ rest) =
      (Decimal.padded width n).toList ++ rest := by
  obtain ⟨c, s, hdigits, hdigit⟩ := Decimal.exists_padded_eq_cons width n
  rw [hdigits]
  exact trimLeft_cons_of_not_isBlank _ (isBlank_eq_false_of_isDigit hdigit)

end Text

namespace CivilDate

open Text.Decimal

/-! ### Numbers and hyphens -/

/-- A number is taken whole if so many digits may be taken and no further one follows. -/
theorem takeNumber?_padded_append {limit width n : Nat} {rest : List Char}
    (hlimit : (padded width n).toList.length ≤ limit)
    (hrest : ∀ c ∈ rest.head?, c.isDigit = false) :
    takeNumber? limit ((padded width n).toList ++ rest) = some (n, rest) := by
  have hstop (k : Nat) : (rest.take k).takeWhile Char.isDigit = [] := by
    cases rest with
    | nil => rw [List.take_nil, List.takeWhile_nil]
    | cons c rest =>
      cases k with
      | zero => rfl
      | succ k => exact List.takeWhile_cons_of_neg (by simp [hrest c rfl])
  rw [takeNumber?, List.take_append, List.take_of_length_le hlimit,
    List.takeWhile_append_of_pos fun _ => isDigit_of_mem_padded, hstop, List.append_nil,
    nat?_padded, List.drop_left]
  rfl

theorem takePart?_padded_append {n : Nat} {rest : List Char} (h : n < 100)
    (hrest : ∀ c ∈ rest.head?, c.isDigit = false) :
    takePart? ('-' :: ((padded 2 n).toList ++ rest)) = some (n, rest) := by
  have hlength : (padded 2 n).toList.length = 2 :=
    length_padded ((Nat.length_toDigits_le_iff (by decide) (by decide)).mpr h)
  have hhyphen : Text.trimLeft ('-' :: ((padded 2 n).toList ++ rest)) =
      '-' :: ((padded 2 n).toList ++ rest) :=
    Text.trimLeft_cons_of_not_isBlank _ (by decide)
  rw [takePart?, hhyphen]
  simp only [Text.trimLeft_padded_append, takeNumber?_padded_append (Nat.le_of_eq hlength) hrest]

/-- Without a sign up to four digits are a year. -/
theorem takeYear?_padded_append (n : Nat) (rest : List Char) :
    takeYear? ((padded 4 n).toList ++ rest) =
      (takeNumber? 4 ((padded 4 n).toList ++ rest)).map fun (n, rest) => ((n : Int), rest) := by
  obtain ⟨c, s, hdigits, hdigit⟩ := exists_padded_eq_cons 4 n
  rw [takeYear?, Text.trimLeft_padded_append, hdigits, List.cons_append]
  split
  · next heq =>
    cases heq
    cases hdigit
  · next heq =>
    cases heq
    cases hdigit
  · rfl

/-- A year is read back, be it written in four digits or with a sign. -/
theorem takeYear?_yearText_append (year : Int) (rest : List Char) :
    takeYear? ((yearText year).toList ++ '-' :: rest) = some (year, '-' :: rest) := by
  have hrest : ∀ c ∈ ('-' :: rest).head?, c.isDigit = false := by
    rintro c ⟨⟩
    rfl
  -- After a sign the year may have as many digits as the text has characters.
  have hsigned (n : Nat) :
      takeNumber? ((padded 4 n).toList ++ '-' :: rest).length
        ((padded 4 n).toList ++ '-' :: rest) = some (n, '-' :: rest) :=
    takeNumber?_padded_append (by simp) hrest
  unfold yearText
  by_cases hfour : 0 ≤ year ∧ year ≤ 9999
  · have hlength : (padded 4 year.toNat).toList.length = 4 :=
      length_padded ((Nat.length_toDigits_le_iff (by decide) (by decide)).mpr (by omega))
    rw [if_pos hfour, takeYear?_padded_append,
      takeNumber?_padded_append (Nat.le_of_eq hlength) hrest]
    simp only [Option.map_some, Int.toNat_of_nonneg hfour.1]
  · rw [if_neg hfour, String.toList_append, List.append_assoc]
    generalize hdigits : (padded 4 year.natAbs).toList ++ '-' :: rest = digits
    have hread := hsigned year.natAbs
    rw [hdigits] at hread
    by_cases hneg : year < 0
    · have hyear : -(year.natAbs : Int) = year := by omega
      have hsign : Text.trimLeft ("-".toList ++ digits) = '-' :: digits :=
        Text.trimLeft_cons_of_not_isBlank digits (by decide)
      rw [if_pos hneg, takeYear?, hsign]
      simp only [hread, Option.map_some, hyear]
    · have hyear : (year.natAbs : Int) = year := by omega
      have hsign : Text.trimLeft ("+".toList ++ digits) = '+' :: digits :=
        Text.trimLeft_cons_of_not_isBlank digits (by decide)
      rw [if_neg hneg, takeYear?, hsign]
      simp only [hread, Option.map_some, hyear]

/-! ### Dates -/

/-- A year, month and day joined by hyphens are read as the date of that label. -/
theorem ofText?_joined (year : Int) {month day : Nat} (hmonth : month < 100) (hday : day < 100) :
    ofText? (yearText year ++ "-" ++ padded 2 month ++ "-" ++ padded 2 day) =
      (Reckoning.gregorian.toCivil ⟨year, month, day⟩).toOption := by
  have htext : (yearText year ++ "-" ++ padded 2 month ++ "-" ++ padded 2 day).toList =
      (yearText year).toList ++
        '-' :: ((padded 2 month).toList ++ '-' :: (padded 2 day).toList) := by
    simp
  have hmonthRead : takePart? ('-' :: ((padded 2 month).toList ++ '-' :: (padded 2 day).toList)) =
      some (month, '-' :: (padded 2 day).toList) := by
    apply takePart?_padded_append hmonth
    rintro c ⟨⟩
    rfl
  have hdayRead : takePart? ('-' :: (padded 2 day).toList) = some (day, []) := by
    rw [← List.append_nil (padded 2 day).toList]
    apply takePart?_padded_append hday
    rintro c ⟨⟩
  rw [ofText?, htext, takeYear?_yearText_append]
  simp [hmonthRead, hdayRead]

/-- The text of a date names its label. -/
theorem ofText?_text (date : CivilDate) :
    ofText? date.text =
      (Reckoning.gregorian.toCivil (Reckoning.gregorian.label date)).toOption := by
  have hnames : (Reckoning.gregorian.label date).NamesDay .gregorian :=
    (Reckoning.label_eq_iff.mp rfl).1
  have hmonth : (Reckoning.gregorian.label date).month < 100 :=
    Nat.lt_of_le_of_lt hnames.month_le (by decide)
  have hday : (Reckoning.gregorian.label date).day < 100 :=
    Nat.lt_of_le_of_lt (Nat.le_trans hnames.day_le (Reckoning.daysInMonth_le ..)) (by decide)
  exact ofText?_joined _ hmonth hday

theorem toCivil_label_eq_ok_iff {date other : CivilDate} :
    Reckoning.gregorian.toCivil (Reckoning.gregorian.label date) = .ok other ↔
      date.Supported ∧ other = date := by
  obtain ⟨hnames, hday⟩ := Reckoning.label_eq_iff.mp (rfl : Reckoning.gregorian.label date = _)
  have hdate : (⟨Reckoning.gregorian.dayNumber (Reckoning.gregorian.label date)⟩ : CivilDate) =
      date := congrArg CivilDate.mk hday.symm
  have hlength : (Reckoning.gregorian.label date).day ≤ 31 :=
    Nat.le_trans hnames.day_le (Reckoning.daysInMonth_le ..)
  rw [Reckoning.toCivil_eq_ok_iff, hdate]
  constructor
  · rintro ⟨-, -, -, rfl, hsupported⟩
    exact ⟨hsupported, rfl⟩
  · rintro ⟨hsupported, rfl⟩
    exact ⟨⟨hnames.one_le_month, hnames.month_le⟩, ⟨hnames.one_le_day, hlength⟩, hnames.day_le,
      rfl, hsupported⟩

/-- The text of a date is read back as the date if the date is supported, and else not at all. -/
theorem ofText?_text_eq_some_iff {date other : CivilDate} :
    ofText? date.text = some other ↔ date.Supported ∧ other = date := by
  rw [ofText?_text, ← toCivil_label_eq_ok_iff]
  cases Reckoning.gregorian.toCivil (Reckoning.gregorian.label date) with
  | error e => simp [Except.toOption]
  | ok date => simp [Except.toOption]

end CivilDate

end Typikon
