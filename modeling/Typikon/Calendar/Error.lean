import Typikon.Calendar.Label
import Typikon.Calendar.Reckoning

/-!
Why a day of the calendar cannot be given.
-/

namespace Typikon

inductive CalendarError where
  | yearOutOfRange (year : Int)
  | monthOutOfRange (month : Nat)
  | dayOutOfRange (day : Nat)
  /-- Month and day are each in range and name no day of the year. -/
  | noSuchDate (label : Label) (reckoning : Reckoning)
  | unknownCalendar (text : String)
  /-- Counting days ran past the last supported date, or past the last number of the word in which
  they are counted. This is not reported: the program stops. -/
  | pastLastDate
deriving DecidableEq

namespace CalendarError

def message : CalendarError → String
  | .yearOutOfRange year => s!"invalid Year {year}, expected value between 1583 and 9999"
  | .monthOutOfRange month => s!"invalid Month {month}, expected value between 1 and 12"
  | .dayOutOfRange day => s!"invalid Day {day}, expected value between 1 and 31"
  | .noSuchDate label reckoning =>
    s!"invalid date {label.text} in the {reckoning.word} calendar"
  | .unknownCalendar text =>
    s!"invalid calendar type \"{text}\", expected one of: {Reckoning.vocabulary.expected}"
  | .pastLastDate => "date out of range"

end CalendarError

end Typikon
