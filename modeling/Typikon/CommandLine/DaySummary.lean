import Typikon.Calendar.Greek
import Typikon.Calendar.Iso8601

/-!
The summary of a liturgical day, as it is shown to a reader.
-/

namespace Typikon.LiturgicalDay

def seasonName (d : LiturgicalDay) : String :=
  if d.isTriodion then "Triodion" else if d.isPentecostarion then "Pentecostarion" else "-"

def summary (d : LiturgicalDay) : List String :=
  let label := Text.Decimal.padded 4 d.year.toNat ++ "-" ++ Text.Decimal.padded 2 d.month ++ "-" ++
    Text.Decimal.padded 2 d.day
  [s!"{label} ({d.reckoning.title}) {d.weekday.abbreviation}",
    s!"civil date:       {d.date.text}",
    s!"greek:            {d.greekDate}",
    s!"mode of week:     {d.modeOfWeek}",
    s!"eothinon:         {d.eothinon}",
    s!"season:           {d.seasonName}",
    s!"day of season:    {d.dayOfSeason}"] ++
  (d.weekOfLent?.map fun week => s!"week of lent:     {week}").toList ++
  [s!"pascha:           {d.paschaThisYear.text}",
    s!"triodion start:   {d.triodionStartThisYear.text}",
    s!"pentecost:        {d.pentecost.text}",
    s!"lukan cycle:      day {d.daysSinceLukanStart}, week {d.weekOfLukanCycle}"]

end Typikon.LiturgicalDay
