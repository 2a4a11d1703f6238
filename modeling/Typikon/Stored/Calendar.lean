import Typikon.Calendar.Iso8601
import Typikon.Calendar.LiturgicalDay
import Typikon.Json.Record

/-!
The stored form of liturgical days.
-/

namespace Typikon

namespace Text.Vocabulary

variable {α : Type}

def toJson (v : Vocabulary α) (value : α) : Json :=
  .string (v.word value)

/-- A keyword is stored as its word. An object whose only field has that name and is null counts as
the word too. -/
def ofJson? (v : Vocabulary α) : Json → Option α
  | .string word => v.ofWord? word
  | .object [(word, .null)] => v.ofWord? word
  | _ => none

end Text.Vocabulary

namespace CivilDate

def toJson (date : CivilDate) : Json :=
  .string date.text

def ofJson? (j : Json) : Option CivilDate :=
  j.string?.bind ofText?

end CivilDate

namespace Weekday

def toJson (d : Weekday) : Json :=
  .string d.abbreviation

/-- Reads the short or the full name of a day, in any case. -/
def ofJson? (j : Json) : Option Weekday :=
  j.string?.bind fun text =>
    all.find? fun d => Text.sameLetters d.abbreviation text || Text.sameLetters d.name text

end Weekday

namespace LiturgicalDay

def fieldNames : List String :=
  ["kind", "date", "year", "month", "day", "weekday", "pascha_last_year", "pascha_this_year",
    "pascha_last", "pascha_next", "triodion_start_last_year", "triodion_start_this_year",
    "triodion_start_next_year", "triodion_start_last", "palm_sunday", "pentecost",
    "all_saints_last_year", "all_saints_this_year", "great_lent_start", "thomas_sunday",
    "palm_sunday_next", "lazarus_saturday_next", "elevation_of_cross_last",
    "sunday_after_elevation_of_cross_last", "start_of_lukan_cycle_last", "is_pascha", "is_triodion",
    "is_pentecostarion", "day_of_season", "days_since_start_of_triodion",
    "days_until_start_of_triodion", "sundays_before_start_of_triodion", "mode_of_week", "eothinon",
    "days_since_sunday_after_elevation", "days_since_start_of_lukan_cycle",
    "computed_day_of_season", "computed_days_since_start_of_triodion"]

def fieldValues (d : LiturgicalDay) : List Json :=
  [Reckoning.vocabulary.toJson d.reckoning, d.date.toJson, .number d.year, .number d.month,
    .number d.day, d.weekday.toJson, d.paschaLastYear.toJson, d.paschaThisYear.toJson,
    d.paschaLast.toJson, d.paschaNext.toJson, d.triodionStartLastYear.toJson,
    d.triodionStartThisYear.toJson, d.triodionStartNextYear.toJson, d.triodionStartLast.toJson,
    d.palmSunday.toJson, d.pentecost.toJson, d.allSaintsLastYear.toJson, d.allSaintsThisYear.toJson,
    d.greatLentStart.toJson, d.thomasSunday.toJson, d.palmSundayNext.toJson,
    d.lazarusSaturdayNext.toJson, d.elevationLast.toJson, d.sundayAfterElevationLast.toJson,
    d.lukanStartLast.toJson, .bool d.isPascha, .bool d.isTriodion, .bool d.isPentecostarion,
    .number d.dayOfSeason, .number d.daysSinceTriodionStart, .number d.daysUntilTriodionStart,
    .number d.sundaysBeforeTriodionStart, .number d.modeOfWeek, .number d.eothinon,
    .number d.daysSinceSundayAfterElevation, .number d.daysSinceLukanStart,
    .number d.computedDayOfSeason, .number d.computedDaysSinceTriodionStart]

def toJson (d : LiturgicalDay) : Json :=
  .record fieldNames (d.fieldValues.map some)

open Json in
def ofJson? : Json → Option LiturgicalDay :=
  readRecord? fieldNames do
    return {
      reckoning := ← required Reckoning.vocabulary.ofJson?
      date := ← required CivilDate.ofJson?
      year := ← required signed32?
      month := ← required unsigned32?
      day := ← required unsigned32?
      weekday := ← required Weekday.ofJson?
      paschaLastYear := ← required CivilDate.ofJson?
      paschaThisYear := ← required CivilDate.ofJson?
      paschaLast := ← required CivilDate.ofJson?
      paschaNext := ← required CivilDate.ofJson?
      triodionStartLastYear := ← required CivilDate.ofJson?
      triodionStartThisYear := ← required CivilDate.ofJson?
      triodionStartNextYear := ← required CivilDate.ofJson?
      triodionStartLast := ← required CivilDate.ofJson?
      palmSunday := ← required CivilDate.ofJson?
      pentecost := ← required CivilDate.ofJson?
      allSaintsLastYear := ← required CivilDate.ofJson?
      allSaintsThisYear := ← required CivilDate.ofJson?
      greatLentStart := ← required CivilDate.ofJson?
      thomasSunday := ← required CivilDate.ofJson?
      palmSundayNext := ← required CivilDate.ofJson?
      lazarusSaturdayNext := ← required CivilDate.ofJson?
      elevationLast := ← required CivilDate.ofJson?
      sundayAfterElevationLast := ← required CivilDate.ofJson?
      lukanStartLast := ← required CivilDate.ofJson?
      isPascha := ← required bool?
      isTriodion := ← required bool?
      isPentecostarion := ← required bool?
      dayOfSeason := ← required signed64?
      daysSinceTriodionStart := ← required signed64?
      daysUntilTriodionStart := ← required signed64?
      sundaysBeforeTriodionStart := ← required signed64?
      modeOfWeek := ← required unsigned8?
      eothinon := ← required unsigned8?
      daysSinceSundayAfterElevation := ← required signed64?
      daysSinceLukanStart := ← required signed64?
      computedDayOfSeason := ← withDefault 0 signed64?
      computedDaysSinceTriodionStart := ← withDefault 0 signed64? }

end LiturgicalDay

end Typikon
