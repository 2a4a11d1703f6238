import Typikon.CommandLine.Arguments
import Typikon.CommandLine.DaySummary
import Typikon.CommandLine.Failure
import Typikon.CommandLine.Settings
import Typikon.Index.EntrySet
import Typikon.Json.Printer
import Typikon.Stored.Compilation

/-!
The commands. They read files by name in whatever way they are given, and otherwise depend on their
arguments and the current date only.
-/

namespace Typikon.CommandLine

/-- What a command prints, and the number of errors that it tells. -/
structure Outcome where
  errors : Nat
  output : String
deriving DecidableEq

def unlines (lines : List String) : String :=
  String.join (lines.map (· ++ "\n"))

def errorLine (long : Bool) (file : String) (e : TemplateError) : String :=
  if long then e.verbose else file ++ ":" ++ e.compact

/-- What compiling a file prints: its errors, and the document if it is asked for. -/
def compilationOutcome (long json : Bool) (file : String) (c : Compilation) : Outcome where
  errors := c.errors.length
  output := unlines (c.errors.map (errorLine long file) ++
    if json then [c.document.toJson.text] else [])

/-- Compiles a template against the entries of a library, or without looking any up. -/
def compileText (entries : Option EntrySet) (name : String) (defaults : Defaults) (text : String) :
    Except CompileError Compilation :=
  match entries with
  | none => (Compilation.ofText Index.full name defaults text ()).1
  | some set => (Compilation.ofText EntrySet.index name defaults text set).1

/-- Prints a day. The given date is only a label, which `--julian` has read in the Julian calendar.
-/
def runDay (a : DayArguments) : Except Failure Outcome :=
  let calendar := if a.julian then Reckoning.julian else .gregorian
  match LiturgicalDay.ofLabel calendar (Reckoning.gregorian.label a.date) with
  | .error cause => .error (.day calendar a.date cause)
  | .ok d => .ok ⟨0, unlines (if a.json then [d.toJson.text] else d.summary)⟩

def settingsOf (file text : String) : Except Failure Settings :=
  match Settings.ofText? text with
  | some settings => .ok (settings.relativeTo file)
  | none => .error (.badSettings file)

def entriesOf (file text : String) : Except Failure EntrySet :=
  (EntrySet.ofText text).mapError (.index file)

/-- What an index whose file cannot be read fails of. A file that was open already counts as an
index that does not answer. -/
def indexError (file : String) (cause : FileError) : IndexError :=
  if cause.isLate then .unavailable cause.message else .unreadable file cause.message

variable {m : Type → Type} [Monad m] (readFile : String → m (Except FileError String))

/-- The settings of a named file, or else of the default file if there is one. -/
def loadSettings (file : Option String) : ExceptT Failure m Settings := do
  match file with
  | some file =>
    match ← readFile file with
    | .ok text => MonadExcept.ofExcept (settingsOf file text)
    | .error cause => throw (.noSettings file cause)
  | none =>
    match ← readFile Settings.defaultFile with
    | .ok text => MonadExcept.ofExcept (settingsOf Settings.defaultFile text)
    | .error .missing | .error .directory => return .empty
    | .error cause => throw (.noSettings Settings.defaultFile cause)

def loadEntries (file : String) : ExceptT Failure m EntrySet := do
  match ← readFile file with
  | .ok text => MonadExcept.ofExcept (entriesOf file text)
  | .error cause => throw (.index file (indexError file cause))

def runCompile (today : CivilDate) (s : Settings) (a : CompileArguments) :
    ExceptT Failure m Outcome := do
  let text ← match ← readFile a.file with
    | .ok text => pure text
    | .error cause => throw (.noTemplate a.file cause)
  let entries ← (a.index.or s.index).mapM (loadEntries readFile)
  let defaults : Defaults :=
    { calendar := (a.calendar.or s.calendar).getD .gregorian
      date := (a.referenceDate.or s.referenceDate).getD today }
  match compileText entries a.file defaults text with
  | .error cause => throw (.compilation a.file cause)
  | .ok c => return compilationOutcome (a.longErrors || s.longErrors.getD false) a.json a.file c

def run (today : CivilDate) (a : Arguments) : ExceptT Failure m Outcome := do
  let settings ← loadSettings readFile a.config
  match a.command with
  | .compile arguments => runCompile readFile today settings arguments
  | .day arguments => MonadExcept.ofExcept (runDay arguments)

end Typikon.CommandLine
