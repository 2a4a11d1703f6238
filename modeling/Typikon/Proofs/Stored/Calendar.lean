import Typikon.Proofs.Calendar.DateText
import Typikon.Proofs.Json.Restoring
import Mathlib.Tactic.MkIffOfInductiveProp

/-!
Liturgical days are read back from their stored form. A date is stored if it is supported, and a
number if it fits the width in which it is held.
-/

namespace Typikon

open Json

theorem CivilDate.restores : Restores ofJson? toJson Supported := by
  intro date other
  rw [toJson, ofJson?, string?, Option.bind_some]
  exact ofText?_text_eq_some_iff

/-- The abbreviation of a day is neither the abbreviation nor the name of another day. -/
theorem Weekday.restores : Restores ofJson? toJson fun _ => True := by
  intro d other
  have hread : ofJson? d.toJson = some d := by
    cases d <;> decide +kernel
  rw [hread]
  simp [eq_comm]

theorem Reckoning.restores : Restores vocabulary.ofJson? vocabulary.toJson fun _ => True :=
  restores_vocabulary fun r => by cases r <;> decide

namespace LiturgicalDay

/-- The dates that a liturgical day is counted from. -/
def anchors (d : LiturgicalDay) : List CivilDate :=
  [d.paschaLastYear, d.paschaThisYear, d.paschaLast, d.paschaNext, d.triodionStartLastYear,
    d.triodionStartThisYear, d.triodionStartNextYear, d.triodionStartLast, d.palmSunday,
    d.pentecost, d.allSaintsLastYear, d.allSaintsThisYear, d.greatLentStart, d.thomasSunday,
    d.palmSundayNext, d.lazarusSaturdayNext, d.elevationLast, d.sundayAfterElevationLast,
    d.lukanStartLast]

/-- The counts that tell the place of the day in the season of the Triodion or before it. -/
def seasonCounts (d : LiturgicalDay) : List Int :=
  [d.dayOfSeason, d.daysSinceTriodionStart, d.daysUntilTriodionStart, d.sundaysBeforeTriodionStart]

/-- The counts that come after the mode and the Gospel: those of the Lukan cycle, and those of the
season once more. -/
def laterCounts (d : LiturgicalDay) : List Int :=
  [d.daysSinceSundayAfterElevation, d.daysSinceLukanStart, d.computedDayOfSeason,
    d.computedDaysSinceTriodionStart]

/-- Every date is supported, and every number fits its width. The fields are in the order in which
they are stored. -/
@[mk_iff]
structure Storable (d : LiturgicalDay) : Prop where
  date : d.date.Supported
  year : -2147483648 ≤ d.year ∧ d.year ≤ 2147483647
  month : d.month ≤ 4294967295
  day : d.day ≤ 4294967295
  anchors : ∀ date ∈ d.anchors, date.Supported
  seasonCounts : ∀ n ∈ d.seasonCounts, Text.Decimal.IsInt64 n
  modeOfWeek : d.modeOfWeek ≤ 255
  eothinon : d.eothinon ≤ 255
  laterCounts : ∀ n ∈ d.laterCounts, Text.Decimal.IsInt64 n

theorem restores : Restores ofJson? toJson Storable := by
  intro d other
  unfold ofJson? toJson
  rw [readRecord?_record (by decide) rfl]
  simp only [fieldValues, List.map_cons, List.map_nil, Reckoning.restores.required_bind,
    CivilDate.restores.required_bind, Weekday.restores.required_bind,
    restores_signed32.required_bind, restores_unsigned32.required_bind,
    restores_bool.required_bind, restores_signed64.required_bind,
    restores_unsigned8.required_bind, restores_signed64.withDefault_bind, run'_pure_eq_some_iff,
    true_and]
  simp only [storable_iff, anchors, seasonCounts, laterCounts, List.forall_mem_cons,
    List.not_mem_nil, false_imp_iff, implies_true, and_true, and_assoc]

end LiturgicalDay

end Typikon
