import Typikon.Proofs.Text.OneLine
import Typikon.Draft.DateProperties

/-!
What dates fail of. A label, a date, a feast or a date property without a day fails with a message
on one line. Only the name of a calendar, which is quoted when it is unknown, could break one.
-/

namespace Typikon

open Text (IsLine)

theorem Label.isLine_text (label : Label) : IsLine label.text := by
  have hhyphen : IsLine "-" := Text.isLine_ofList (by decide)
  have hyear := (Text.isLine_repr_int label.year).append hhyphen
  exact ((hyear.append (Text.isLine_padded 2 label.month)).append hhyphen).append
    (Text.isLine_padded 2 label.day)

theorem Reckoning.isLine_word (r : Reckoning) : IsLine r.word := by
  cases r <;> exact Text.isLine_ofList (by decide)

namespace CalendarError

theorem isLine_message {e : CalendarError} (h : ∀ text, e = .unknownCalendar text → IsLine text) :
    IsLine e.message := by
  cases e with
  | yearOutOfRange year =>
    exact Text.isLine_around (by decide) (Text.isLine_repr_int year) (by decide)
  | monthOutOfRange month =>
    exact Text.isLine_around (by decide) (Text.isLine_repr_nat month) (by decide)
  | dayOutOfRange day => exact Text.isLine_around (by decide) (Text.isLine_repr_nat day) (by decide)
  | noSuchDate label r =>
    exact ((Text.isLine_around (by decide) label.isLine_text (by decide)).append
      r.isLine_word).append (Text.isLine_ofList (by decide))
  | unknownCalendar text =>
    have hexpected : IsLine Reckoning.vocabulary.expected :=
      Text.Vocabulary.isLine_expected fun r _ => r.isLine_word
    exact (Text.isLine_around (by decide) (h text rfl) (by decide)).append hexpected
  | pastLastDate => exact Text.isLine_ofList (by decide)

end CalendarError

/-- If something fails, it does so with a message on one line. -/
def FailsOnLine {α : Type} (x : Except CalendarError α) : Prop :=
  ∀ e, x = .error e → IsLine e.message

namespace FailsOnLine

variable {α β : Type} {x : Except CalendarError α}

theorem ok (a : α) : FailsOnLine (.ok a : Except CalendarError α) := nofun

theorem error {e : CalendarError} (h : ∀ text, e ≠ .unknownCalendar text) :
    FailsOnLine (.error e : Except CalendarError α) := by
  rintro _ ⟨⟩
  exact CalendarError.isLine_message fun text heq => absurd heq (h text)

theorem bind (hx : FailsOnLine x) {f : α → Except CalendarError β}
    (hf : ∀ a, FailsOnLine (f a)) : FailsOnLine (x >>= f) := by
  cases x with
  | ok a => exact hf a
  | error e =>
    rintro _ ⟨⟩
    exact hx e rfl

theorem map (hx : FailsOnLine x) (f : α → β) : FailsOnLine (x.map f) := by
  cases x with
  | ok a => exact ok (f a)
  | error e =>
    rintro _ ⟨⟩
    exact hx e rfl

theorem ite {c : Prop} [Decidable c] {y : Except CalendarError α} (hx : FailsOnLine x)
    (hy : FailsOnLine y) : FailsOnLine (if c then x else y) := by
  split
  · exact hx
  · exact hy

end FailsOnLine

theorem Reckoning.failsOnLine_toCivil (r : Reckoning) (label : Label) :
    FailsOnLine (r.toCivil label) :=
  .ite (.error nofun) <| .ite (.error nofun) <| .ite (.error nofun) <| .ite (.error nofun) <|
    .ite (.ok _) (.error nofun)

theorem Pascha.failsOnLine_date (r : Reckoning) (year : Int) : FailsOnLine (Pascha.date r year) :=
  (r.failsOnLine_toCivil _).bind fun _ => .ite (.ok _) (.error nofun)

theorem Anchors.failsOnLine_ofYear (r : Reckoning) (year : Int) :
    FailsOnLine (Anchors.ofYear r year) := by
  refine (Pascha.failsOnLine_date r _).bind fun _ => ?_
  refine (Pascha.failsOnLine_date r _).bind fun _ => ?_
  refine (Pascha.failsOnLine_date r _).bind fun _ => ?_
  refine (r.failsOnLine_toCivil _).bind fun _ => ?_
  refine (r.failsOnLine_toCivil _).bind fun _ => ?_
  exact (r.failsOnLine_toCivil _).bind fun _ => .ok _

namespace LiturgicalDay

theorem failsOnLine_ofDate (r : Reckoning) (date : CivilDate) : FailsOnLine (ofDate r date) :=
  .ite ((Anchors.failsOnLine_ofYear r _).map _) (.error nofun)

theorem failsOnLine_dateOfLabel (r : Reckoning) (label : Label) :
    FailsOnLine (dateOfLabel r label) :=
  .ite (r.failsOnLine_toCivil label) (.error nofun)

theorem failsOnLine_nextDate (r : Reckoning) (month day : Nat) (reference : CivilDate)
    (years : List Int) {missing : Option CalendarError} (h : ∀ e ∈ missing, IsLine e.message) :
    FailsOnLine (nextDate r month day reference years missing) := by
  induction years generalizing missing with
  | nil =>
    cases missing with
    | none => exact .error nofun
    | some e =>
      rintro _ ⟨⟩
      exact h e rfl
  | cons year years ih =>
    have hlabel := failsOnLine_dateOfLabel r ⟨year, month, day⟩
    unfold nextDate
    split
    · exact .ite (.ok _) (ih h)
    next label r' hfail =>
      refine ih fun e he => ?_
      cases missing with
      | none =>
        cases he
        exact hlabel _ hfail
      | some first => exact h e he
    next e _ hfail =>
      rintro _ ⟨⟩
      exact hlabel e hfail

theorem failsOnLine_ofMonthDay (r : Reckoning) (month day : Nat) (reference : CivilDate) :
    FailsOnLine (ofMonthDay r month day reference) := by
  unfold ofMonthDay
  refine (failsOnLine_nextDate r month day reference _ ?_).bind fun date =>
    failsOnLine_ofDate r date
  intro e he
  cases he

end LiturgicalDay

theorem DateProperties.failsOnLine_liturgicalDay (p : DateProperties) (reference : CivilDate) :
    FailsOnLine (p.liturgicalDay reference) := by
  unfold liturgicalDay
  split
  · exact (LiturgicalDay.failsOnLine_dateOfLabel _ _).bind fun _ =>
      LiturgicalDay.failsOnLine_ofDate _ _
  · exact LiturgicalDay.failsOnLine_ofMonthDay _ _ _ _
  · exact LiturgicalDay.failsOnLine_ofDate _ _

end Typikon
