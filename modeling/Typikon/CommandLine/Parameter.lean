/-!
What can be given on the command line: the commands, and the options and operands of each.
-/

namespace Typikon.CommandLine

inductive Parameter where
  | verbose
  | config
  | help
  | version
  | file
  | index
  | json
  | longErrors
  | calendar
  | referenceDate
  | date
  | julian
deriving DecidableEq

namespace Parameter

/-- The name after two hyphens. Operands have none. -/
def long? : Parameter → Option String
  | .verbose => some "verbose"
  | .config => some "config"
  | .help => some "help"
  | .version => some "version"
  | .index => some "index"
  | .json => some "json"
  | .longErrors => some "long-errors"
  | .calendar => some "calendar"
  | .referenceDate => some "reference-date"
  | .julian => some "julian"
  | .file | .date => none

/-- The letter after one hyphen. -/
def short? : Parameter → Option Char
  | .verbose => some 'v'
  | .help => some 'h'
  | .version => some 'V'
  | .index => some 'i'
  | _ => none

def takesValue : Parameter → Bool
  | .config | .file | .index | .calendar | .referenceDate | .date => true
  | _ => false

end Parameter

inductive Scope where
  | program
  | compile
  | day
deriving DecidableEq

namespace Scope

def ofWord? : String → Option Scope
  | "compile" => some .compile
  | "ldp" => some .day
  | _ => none

def options : Scope → List Parameter
  | .program => [.verbose, .config, .help, .version]
  | .compile =>
    [.verbose, .config, .help, .index, .json, .longErrors, .calendar, .referenceDate]
  | .day => [.verbose, .config, .help, .julian, .json]

def operand? : Scope → Option Parameter
  | .program => none
  | .compile => some .file
  | .day => some .date

def long? (s : Scope) (name : String) : Option Parameter :=
  s.options.find? fun p => p.long? = some name

def short? (s : Scope) (letter : Char) : Option Parameter :=
  s.options.find? fun p => p.short? = some letter

end Scope

end Typikon.CommandLine
