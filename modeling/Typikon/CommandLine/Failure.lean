import Typikon.Calendar.Iso8601
import Typikon.CommandLine.FileError
import Typikon.Compilation

/-!
What commands fail of. The message of a failure says what was attempted, and then why it did not
work.
-/

namespace Typikon.CommandLine

inductive Failure where
  | noSettings (path : String) (cause : FileError)
  | badSettings (path : String)
  | noTemplate (path : String) (cause : FileError)
  | index (path : String) (cause : IndexError)
  | compilation (name : String) (cause : CompileError)
  | day (calendar : Reckoning) (date : CivilDate) (cause : CalendarError)
deriving DecidableEq

namespace Failure

def indexMessages : IndexError → List String
  | .unreadable path reason => [(IndexError.unreadable path reason).message, reason]
  | e => [e.message]

def compileMessages : CompileError → List String
  | .index cause => indexMessages cause
  | .date cause => [(CompileError.date cause).message, cause.message]

/-- What was attempted, and then why it failed, each cause after what it caused. -/
def messages : Failure → List String
  | .noSettings path cause => [s!"failed to read config file: {path}", cause.message]
  | .badSettings path => [s!"failed to parse config file: {path}"]
  | .noTemplate path cause => [s!"failed to read template: {path}", cause.message]
  | .index path cause => s!"failed to load index: {path}" :: indexMessages cause
  | .compilation name cause => s!"failed to compile {name}" :: compileMessages cause
  | .day calendar date cause =>
    [s!"cannot compute the {calendar.title} liturgical day for {date.text}", cause.message]

def message (f : Failure) : String :=
  ": ".intercalate f.messages

end Failure

end Typikon.CommandLine
