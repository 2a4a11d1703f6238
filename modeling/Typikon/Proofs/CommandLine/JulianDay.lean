import Typikon.CommandLine.Run
import Typikon.Proofs.Calendar.DateText
import Typikon.Proofs.Calendar.NearestAnchors

/-!
The day of a Julian label on the command line. The label is read as a date of the Gregorian calendar
first, so the leap days that the Julian calendar alone has are refused there. Any other label comes
to the day that it names, and the day is shown under it.
-/

namespace Typikon

namespace Text.Decimal

theorem padded_eq_toString {width n : Nat} (h : width ≤ (Nat.toDigits 10 n).length) :
    padded width n = toString n := by
  apply String.toList_inj.mp
  rw [toList_padded, Nat.sub_eq_zero_of_le h, List.replicate_zero, List.nil_append]
  exact Nat.toList_repr.symm

end Text.Decimal

namespace Label

open Text.Decimal

/-- The leap days of the Julian calendar in years that are no leap years of the Gregorian one. -/
def IsJulianLeapDay (label : Label) : Prop :=
  label.month = 2 ∧ label.day = 29 ∧ label.year % 100 = 0 ∧ label.year % 400 ≠ 0

instance (label : Label) : Decidable label.IsJulianLeapDay :=
  inferInstanceAs (Decidable (_ ∧ _))

/-- Apart from these leap days the Julian calendar has the labels of the Gregorian one. -/
theorem namesDay_gregorian_iff {label : Label} (h : label.NamesDay .julian) :
    label.NamesDay .gregorian ↔ ¬label.IsJulianLeapDay := by
  obtain ⟨year, month, day⟩ := label
  constructor
  · rintro hnames ⟨rfl, rfl, hcentury, hfour⟩
    obtain ⟨-, hleap⟩ := Reckoning.namesDay_leapDay_iff.1 hnames
    dsimp only at hcentury hfour
    omega
  · intro hnot
    obtain ⟨hlow, hhigh, hday, hlast⟩ := h
    refine ⟨hlow, hhigh, hday, ?_⟩
    dsimp only [IsJulianLeapDay] at *
    by_cases hmonth : month = 2
    · subst hmonth
      have hjulian := Reckoning.daysInMonth_two .julian year
      have hgregorian := Reckoning.daysInMonth_two .gregorian year
      by_cases hleap : Reckoning.gregorian.IsLeapYear year
      · rw [if_pos hleap] at hgregorian
        split at hjulian <;> omega
      · rw [if_neg hleap] at hgregorian
        simp only [Reckoning.IsLeapYear] at hleap
        split at hjulian
        next hjulianLeap =>
          simp only [Reckoning.IsLeapYear] at hjulianLeap
          omega
        · omega
    · have hsame :
          Reckoning.gregorian.daysInMonth year month = Reckoning.julian.daysInMonth year month := by
        unfold Reckoning.daysInMonth
        split
        case h_5 => exact absurd rfl hmonth
        all_goals rfl
      rwa [hsame]

/-- The text of a label has its year in four digits if it takes so many. -/
theorem text_eq_joined {label : Label} (hlow : 1000 ≤ label.year) (hhigh : label.year ≤ 9999) :
    label.text = CivilDate.yearText label.year ++ "-" ++ padded 2 label.month ++ "-" ++
      padded 2 label.day := by
  obtain ⟨n, hn⟩ := Int.eq_ofNat_of_zero_le (show 0 ≤ label.year by omega)
  have hdigits : 4 ≤ (Nat.toDigits 10 n).length := by
    have hlength : (Nat.toDigits 10 n).length ≤ 3 ↔ n < 10 ^ 3 :=
      Nat.length_toDigits_le_iff (by decide) (by decide)
    omega
  have hyear : CivilDate.yearText label.year = toString label.year := by
    rw [CivilDate.yearText, if_pos ⟨by omega, hhigh⟩, hn]
    exact padded_eq_toString hdigits
  rw [hyear]
  rfl

theorem head?_text_ne {label : Label} (hlow : 1000 ≤ label.year) (hhigh : label.year ≤ 9999) :
    label.text.toList.head? ≠ some '-' := by
  obtain ⟨c, s, hdigits, hdigit⟩ := exists_padded_eq_cons 4 label.year.toNat
  rw [text_eq_joined hlow hhigh, CivilDate.yearText, if_pos ⟨by omega, hhigh⟩]
  simp only [String.toList_append, hdigits, List.cons_append, List.head?_cons]
  rintro ⟨⟩
  cases hdigit

/-- The text of a label that names a day of the Julian calendar is read as a Gregorian date with the
same label, if there is one. -/
theorem ofText?_text_of_namesDay {label : Label} (hlow : 1000 ≤ label.year)
    (hhigh : label.year ≤ 9999) (h : label.NamesDay .julian) :
    (¬label.IsJulianLeapDay →
        ∃ date, CivilDate.ofText? label.text = some date ∧
          Reckoning.gregorian.label date = label) ∧
      (label.IsJulianLeapDay → CivilDate.ofText? label.text = none) := by
  have hmonth : label.month < 100 := Nat.lt_of_le_of_lt h.month_le (by decide)
  have hday : label.day < 100 :=
    Nat.lt_of_le_of_lt (Nat.le_trans h.day_le (Reckoning.daysInMonth_le ..)) (by decide)
  rw [text_eq_joined hlow hhigh, CivilDate.ofText?_joined _ hmonth hday]
  constructor
  · intro hcommon
    obtain ⟨date, hdate, hlabel⟩ := Reckoning.exists_toCivil_eq_ok
      ((namesDay_gregorian_iff h).2 hcommon) (by omega) (by omega)
    exact ⟨date, by rw [hdate]; rfl, hlabel⟩
  · intro hleap
    cases hdate : Reckoning.gregorian.toCivil label with
    | error e => rfl
    | ok date =>
      obtain ⟨-, hlabel⟩ := Reckoning.toCivil_eq_ok_iff_label_eq.1 hdate
      have hnames := Reckoning.exists_label_eq_iff.1 ⟨date, hlabel⟩
      exact absurd hleap ((namesDay_gregorian_iff h).1 hnames)

end Label

namespace CommandLine

/-! ### Reading the words -/

theorem settle_date (text : String) :
    (⟨.day, .nothing, some (.date, some text), none⟩ : Progress).settle =
      match CivilDate.ofText? text with
      | some date => .ok ⟨.day, { Given.nothing with date }, none, none⟩
      | none => .error .badValue := by
  have htake : Given.nothing.takeValue .date text =
      (Given.once none (Given.checked (CivilDate.ofText? text))).map
        fun date => { Given.nothing with date } := rfl
  simp only [Progress.settle, htake]
  cases CivilDate.ofText? text with
  | none => rfl
  | some date => rfl

/-- The date before `--julian` is checked when that option is met. -/
theorem words_julian (text : String) :
    (⟨.day, .nothing, some (.date, some text), none⟩ : Progress).words ["--julian"] =
      match CivilDate.ofText? text with
      | some date =>
        .ok ⟨.day, { Given.nothing with date := some date, julian := true }, none, none⟩
      | none => .error .badValue := by
  have hdashes : "--julian" ≠ "--" := by decide
  have hswitch : (⟨.day, .nothing, some (.date, some text), none⟩ : Progress).word "--julian" =
      (⟨.day, .nothing, some (.date, some text), none⟩ : Progress).takeSwitch .julian := rfl
  rw [Progress.words, if_neg hdashes, hswitch, Progress.takeSwitch, settle_date]
  cases CivilDate.ofText? text with
  | none => rfl
  | some date => rfl

theorem word_of_head?_ne {p : Progress} {text : String} (h : text.toList.head? ≠ some '-')
    (hpending : p.pending = none) : p.word text = p.operandWord text := by
  unfold Progress.word
  split
  · simp_all
  · simp_all
  · simp_all
  · rfl

theorem read_julianDay {text : String} (h : text.toList.head? ≠ some '-') :
    Arguments.read ["ldp", text, "--julian"] =
      match CivilDate.ofText? text with
      | some date => .ok ⟨0, none, .day ⟨date, true, false⟩⟩
      | none => .error .badValue := by
  have hdashes : text ≠ "--" := by
    rintro rfl
    exact h rfl
  have hcommand : Arguments.read ["ldp", text, "--julian"] =
      Arguments.ofCommand (.start .program) .day [text, "--julian"] := by
    rw [Arguments.read, Arguments.readFrom]
    rfl
  have hword : (Progress.start .day).word text =
      .ok ⟨.day, .nothing, some (.date, some text), none⟩ :=
    word_of_head?_ne h rfl
  have hwords : (Progress.start .day).words [text, "--julian"] =
      (⟨.day, .nothing, some (.date, some text), none⟩ : Progress).words ["--julian"] := by
    rw [Progress.words, if_neg hdashes, hword]
    rfl
  rw [hcommand, Arguments.ofCommand, hwords, words_julian]
  cases CivilDate.ofText? text with
  | none => rfl
  | some date => rfl

/-! ### Running the command -/

/-- The first line shows the label of the day in its reckoning. -/
theorem head?_summary {d : LiturgicalDay} {label : Label}
    (hshown : ⟨d.year, d.month, d.day⟩ = label) (hlow : 1000 ≤ label.year)
    (hhigh : label.year ≤ 9999) :
    d.summary.head? = some s!"{label.text} ({d.reckoning.title}) {d.weekday.abbreviation}" := by
  have hfour : 0 ≤ label.year ∧ label.year ≤ 9999 := ⟨by omega, hhigh⟩
  subst hshown
  rw [Label.text_eq_joined hlow hhigh, CivilDate.yearText, if_pos hfour]
  rfl

theorem run_day {m : Type → Type} [Monad m] (readFile : String → m (Except FileError String))
    (today : CivilDate) {a : Arguments} {arguments : DayArguments} {outcome : Outcome}
    (hcommand : a.command = .day arguments) (hday : runDay arguments = .ok outcome) :
    run readFile today a = do
      let _ ← loadSettings readFile a.config
      return outcome := by
  unfold run
  simp only [hcommand, hday]
  rfl

/-- On any label of a liturgical year that names a day of the Julian calendar, `--julian` shows the
day of that label under it, whatever the settings, unless the label is a leap day that the Gregorian
calendar lacks. Then the words are refused. -/
theorem ldp_julian_of_toCivil {label : Label} {date : CivilDate} (hlow : 1583 ≤ label.year)
    (hhigh : label.year ≤ 9999) (hdate : Reckoning.julian.toCivil label = .ok date) :
    ∃ d, LiturgicalDay.ofLabel .julian label = .ok d ∧ d.date = date ∧
      (¬label.IsJulianLeapDay →
        ∃ a, Arguments.read ["ldp", label.text, "--julian"] = .ok a ∧
          d.summary.head? = some
              s!"{label.text} ({Reckoning.julian.title}) {d.weekday.abbreviation}" ∧
          ∀ (m : Type → Type) [Monad m] (readFile : String → m (Except FileError String))
            (today : CivilDate),
            run readFile today a = do
              let _ ← loadSettings readFile none
              return ⟨0, unlines d.summary⟩) ∧
      (label.IsJulianLeapDay →
        Arguments.read ["ldp", label.text, "--julian"] = .error .badValue) := by
  obtain ⟨-, hlabel⟩ := Reckoning.toCivil_eq_ok_iff_label_eq.1 hdate
  have hdateOf : LiturgicalDay.dateOfLabel .julian label = .ok date :=
    LiturgicalDay.dateOfLabel_eq_ok_iff.2 ⟨⟨hlow, hhigh⟩, hlabel⟩
  obtain ⟨d, hd⟩ := LiturgicalDay.exists_ofDate_eq_ok_iff.2
    (show IsLiturgicalYear (Reckoning.julian.label date).year from hlabel ▸ ⟨hlow, hhigh⟩)
  have hofLabel : LiturgicalDay.ofLabel .julian label = .ok d := by
    rw [LiturgicalDay.ofLabel, hdateOf]
    exact hd
  obtain ⟨hreckoning, hday, hshown⟩ := LiturgicalDay.isOfDate_of_ofDate hd
  rw [hlabel] at hshown
  obtain ⟨hread, hrefused⟩ := Label.ofText?_text_of_namesDay (by omega) hhigh
    (Reckoning.exists_label_eq_iff.1 ⟨date, hlabel⟩)
  rw [read_julianDay (Label.head?_text_ne (by omega) hhigh)]
  refine ⟨d, hofLabel, hday, ?_, ?_⟩
  · intro hcommon
    obtain ⟨given, hgiven, hsame⟩ := hread hcommon
    have hrun : runDay ⟨given, true, false⟩ = .ok ⟨0, unlines d.summary⟩ := by
      simp only [runDay, ↓reduceIte, hsame, hofLabel]
      rfl
    rw [hgiven]
    refine ⟨_, rfl, ?_, fun m _ readFile today => run_day readFile today rfl hrun⟩
    rw [head?_summary hshown (by omega) hhigh, hreckoning]
  · intro hleap
    rw [hrefused hleap]

/-- The year 2000 is a leap year of both calendars. -/
theorem ldp_julian_of_toCivil_leapDay :
    Reckoning.julian.toCivil ⟨2000, 2, 29⟩ = .ok ⟨730192⟩ ∧
      ¬(⟨2000, 2, 29⟩ : Label).IsJulianLeapDay ∧
      ∃ a, Arguments.read ["ldp", "2000-02-29", "--julian"] = .ok a := by
  have hdate : Reckoning.julian.toCivil ⟨2000, 2, 29⟩ = .ok ⟨730192⟩ := rfl
  have hcommon : ¬(⟨2000, 2, 29⟩ : Label).IsJulianLeapDay := by decide
  obtain ⟨d, -, -, hread, -⟩ := ldp_julian_of_toCivil (by decide) (by decide) hdate
  obtain ⟨a, ha, -⟩ := hread hcommon
  exact ⟨hdate, hcommon, a, ha⟩

/-- 29 February 1700 is a day of the Julian calendar, and `--julian` refuses it. -/
theorem not_read_julianLeapDay :
    (∃ d, LiturgicalDay.ofLabel .julian ⟨1700, 2, 29⟩ = .ok d) ∧
      Reckoning.julian.toCivil ⟨1700, 2, 29⟩ = .ok ⟨620617⟩ ∧
      ¬∃ a, Arguments.read ["ldp", "1700-02-29", "--julian"] = .ok a := by
  refine ⟨⟨_, rfl⟩, rfl, ?_⟩
  rintro ⟨a, ha⟩
  have hhead : "1700-02-29".toList.head? ≠ some '-' := by decide
  have hnone : CivilDate.ofText? "1700-02-29" = none := by decide +kernel
  rw [read_julianDay hhead, hnone] at ha
  cases ha

end CommandLine

end Typikon
