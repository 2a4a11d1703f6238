import Typikon.Calendar.Iso8601
import Typikon.CommandLine.Parameter

/-!
Reading of the command line. Options come before, between or after operands, and `--` makes operands
of all words after it. A value is checked once the next option or operand is met, so a word that is
unknown is found before a bad value right in front of it.
-/

namespace Typikon.CommandLine

inductive UsageError where
  | helpWanted
  | versionWanted
  | nothingGiven
  | commandMissing
  | unknownCommand
  | operandMissing
  | unknownArgument
  | valueMissing
  | valueUnwanted
  | badValue
  | repeated
deriving DecidableEq

namespace UsageError

def message : UsageError → String
  | .helpWanted | .nothingGiven =>
    "usage: doxa compile FILE [-i INDEX] [--json] [--long-errors] [--calendar CALENDAR] " ++
      "[--reference-date DATE]\n       doxa ldp DATE [--julian] [--json]\n" ++
      "options: -v, --config FILE, -h, -V"
  | .versionWanted => "doxa 0.1.0"
  | .commandMissing => "error: a command is missing"
  | .unknownCommand => "error: unknown command"
  | .operandMissing => "error: an argument is missing"
  | .unknownArgument => "error: unexpected argument"
  | .valueMissing => "error: an option is missing its value"
  | .valueUnwanted => "error: an option takes no value"
  | .badValue => "error: invalid value"
  | .repeated => "error: an option is given twice"

end UsageError

structure Given where
  verbose : Nat
  config : Option String
  file : Option String
  index : Option String
  json : Bool
  longErrors : Bool
  calendar : Option Reckoning
  referenceDate : Option CivilDate
  date : Option CivilDate
  julian : Bool
deriving DecidableEq

namespace Given

def nothing : Given := ⟨0, none, none, none, false, false, none, none, none, false⟩

def path (text : String) : Except UsageError String :=
  if text = "" then .error .valueMissing else .ok text

/-- Reads a value that has not been given before. -/
def once {α : Type} (before : Option α) (value : Except UsageError α) :
    Except UsageError (Option α) :=
  if before.isSome then .error .repeated else value.map some

def checked {α : Type} (value : Option α) : Except UsageError α :=
  match value with
  | some a => .ok a
  | none => .error .badValue

def takeValue (g : Given) (p : Parameter) (text : String) : Except UsageError Given :=
  match p with
  | .config => (once g.config (path text)).map fun config => { g with config }
  | .file => (once g.file (path text)).map fun file => { g with file }
  | .index => (once g.index (path text)).map fun index => { g with index }
  | .calendar =>
    (once g.calendar (checked (Reckoning.vocabulary.find? text))).map fun calendar =>
      { g with calendar }
  | .referenceDate =>
    (once g.referenceDate (checked (CivilDate.ofText? text))).map fun referenceDate =>
      { g with referenceDate }
  | .date => (once g.date (checked (CivilDate.ofText? text))).map fun date => { g with date }
  | _ => .error .valueUnwanted

/-- Takes an option without a value. That output is to be verbose can be said many times, and counts
up to 255. -/
def takeSwitch (g : Given) (p : Parameter) : Except UsageError Given :=
  match p with
  | .verbose => .ok { g with verbose := min (g.verbose + 1) 255 }
  | .json => if g.json then .error .repeated else .ok { g with json := true }
  | .longErrors => if g.longErrors then .error .repeated else .ok { g with longErrors := true }
  | .julian => if g.julian then .error .repeated else .ok { g with julian := true }
  | .help => .error .helpWanted
  | .version => .error .versionWanted
  | _ => .error .valueMissing

end Given

/-- A scope part of whose words have been read. -/
structure Progress where
  scope : Scope
  given : Given
  /-- An option or operand whose value is yet to be checked, or, if there is none, yet to come. -/
  pending : Option (Parameter × Option String)
  operand : Option Parameter
deriving DecidableEq

namespace Progress

def start (s : Scope) : Progress :=
  ⟨s, .nothing, none, s.operand?⟩

def awaitsValue (p : Progress) : Bool :=
  match p.pending with
  | some (_, none) => true
  | _ => false

def settle (p : Progress) : Except UsageError Progress :=
  match p.pending with
  | none => .ok p
  | some (_, none) => .error .valueMissing
  | some (parameter, some text) => do
    return { p with given := ← p.given.takeValue parameter text, pending := none }

def takeValue (p : Progress) (parameter : Parameter) (text : String) :
    Except UsageError Progress := do
  let p ← p.settle
  return { p with given := ← p.given.takeValue parameter text }

def takeSwitch (p : Progress) (parameter : Parameter) : Except UsageError Progress := do
  let p ← p.settle
  return { p with given := ← p.given.takeSwitch parameter }

/-- Takes an option whose value is the next word. -/
def awaitValue (p : Progress) (parameter : Parameter) : Except UsageError Progress := do
  let p ← p.settle
  return { p with pending := some (parameter, none) }

/-- Takes the word after two hyphens. It may hold a value after an equals sign. -/
def longOption (p : Progress) (word : List Char) : Except UsageError Progress :=
  let name := word.takeWhile fun c => c ≠ '='
  match p.scope.long? (String.ofList name), word.drop name.length with
  | none, _ => .error .unknownArgument
  | some parameter, [] =>
    if parameter.takesValue then p.awaitValue parameter else p.takeSwitch parameter
  | some parameter, _ :: value =>
    if parameter.takesValue then p.takeValue parameter (String.ofList value)
    else .error .valueUnwanted

/-- Takes the letters after one hyphen. The value of an option is what follows its letter, less an
equals sign, or else the next word. -/
def shortOptions (p : Progress) : List Char → Except UsageError Progress
  | [] => .ok p
  | letter :: rest =>
    match p.scope.short? letter with
    | none => .error .unknownArgument
    | some parameter =>
      if parameter.takesValue then
        match rest with
        | [] => p.awaitValue parameter
        | '=' :: value => p.takeValue parameter (String.ofList value)
        | value => p.takeValue parameter (String.ofList value)
      else do
        let p ← p.takeSwitch parameter
        p.shortOptions rest

/-- Takes a word that is no option. -/
def operandWord (p : Progress) (word : String) : Except UsageError Progress :=
  match p.operand with
  | none => .error (if p.scope = .program then .unknownCommand else .unknownArgument)
  | some parameter => do
    let p ← p.settle
    return { p with pending := some (parameter, some word), operand := none }

/-- Takes a word before any `--`. -/
def word (p : Progress) (word : String) : Except UsageError Progress :=
  match word.toList, p.pending with
  | '-' :: '-' :: rest, _ => p.longOption rest
  | '-' :: letter :: rest, _ => p.shortOptions (letter :: rest)
  | _, some (parameter, none) => .ok { p with pending := some (parameter, some word) }
  | _, _ => p.operandWord word

def words (p : Progress) : List String → Except UsageError Progress
  | [] => p.settle
  | w :: rest =>
    if w = "--" then do (← rest.foldlM operandWord p).settle
    else do
      let p ← p.word w
      p.words rest

end Progress

structure CompileArguments where
  file : String
  index : Option String
  json : Bool
  longErrors : Bool
  calendar : Option Reckoning
  referenceDate : Option CivilDate
deriving DecidableEq

structure DayArguments where
  date : CivilDate
  julian : Bool
  json : Bool
deriving DecidableEq

inductive Command where
  | compile (arguments : CompileArguments)
  | day (arguments : DayArguments)
deriving DecidableEq

structure Arguments where
  verbose : Nat
  config : Option String
  command : Command
deriving DecidableEq

namespace Command

def ofGiven (s : Scope) (g : Given) : Except UsageError Command :=
  match s, g.file, g.date with
  | .compile, some file, _ =>
    .ok (.compile ⟨file, g.index, g.json, g.longErrors, g.calendar, g.referenceDate⟩)
  | .day, _, some date => .ok (.day ⟨date, g.julian, g.json⟩)
  | _, _, _ => .error .operandMissing

end Command

namespace Arguments

/-- What words after `help` come to. Each must name a command, and commands have none of their own.
-/
def help : List String → UsageError
  | [] => .helpWanted
  | [word] =>
    if word = "help" ∨ (Scope.ofWord? word).isSome then .helpWanted else .unknownCommand
  | _ => .unknownCommand

/-- The arguments of a command. What it shares with the program counts where it is given last. -/
def ofCommand (program : Progress) (s : Scope) (words : List String) :
    Except UsageError Arguments := do
  let inner := (← (Progress.start s).words words).given
  let command ← Command.ofGiven s inner
  let outer := (← program.settle).given
  return {
    verbose := if inner.verbose = 0 then outer.verbose else inner.verbose
    config := inner.config.or outer.config
    command }

def readFrom (p : Progress) : List String → Except UsageError Arguments
  | [] => do
    let p ← p.settle
    throw (if p.given = .nothing then .nothingGiven else .commandMissing)
  | word :: rest =>
    if !p.awaitsValue && word = "help" then .error (help rest)
    else
      match if p.awaitsValue then none else Scope.ofWord? word with
      | some s => ofCommand p s rest
      | none =>
        if word = "--" then
          match rest with
          | [] => readFrom p []
          | operand :: _ =>
            .error
              (if operand = "help" ∨ (Scope.ofWord? operand).isSome then .unknownArgument
              else .unknownCommand)
        else do
          let p ← p.word word
          readFrom p rest

def read (words : List String) : Except UsageError Arguments :=
  readFrom (.start .program) words

end Arguments

end Typikon.CommandLine
