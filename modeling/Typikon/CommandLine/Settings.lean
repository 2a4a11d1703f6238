import Typikon.Calendar.Iso8601
import Typikon.CommandLine.Path
import Typikon.Toml

/-!
Settings. They are kept in a file, and what is given on the command line comes before them.
-/

namespace Typikon.CommandLine

structure Settings where
  index : Option String
  calendar : Option Reckoning
  referenceDate : Option CivilDate
  longErrors : Option Bool
deriving DecidableEq

namespace Settings

def empty : Settings := ⟨none, none, none, none⟩

/-- The file that settings are read from unless another is named. -/
def defaultFile : String := "doxa.toml"

def set? (s : Settings) : String × Toml.Value → Option Settings
  | ("index", .string path) =>
    if s.index.isSome then none else some { s with index := some path }
  | ("calendar", .string word) => do
    let calendar ← Reckoning.vocabulary.ofWord? word
    if s.calendar.isSome then none else some { s with calendar := some calendar }
  | ("reference_date", .string text) => do
    let date ← CivilDate.ofText? text
    if s.referenceDate.isSome then none else some { s with referenceDate := some date }
  | ("long_errors", .boolean b) =>
    if s.longErrors.isSome then none else some { s with longErrors := some b }
  | _ => none

def ofText? (text : String) : Option Settings := do
  (← Toml.assignments? text).foldlM set? empty

/-- The settings of a file, whose paths are relative to where the file is. -/
def relativeTo (file : String) (s : Settings) : Settings :=
  { s with index := s.index.map (Path.within (Path.directory file)) }

end Settings

end Typikon.CommandLine
