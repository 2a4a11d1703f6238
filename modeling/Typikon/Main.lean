import Std.Time
import Typikon.CommandLine.Run

/-!
The program. It reads its files, prints what its command comes to, and ends with 0 if that holds no
errors, with 1 if it does or nothing comes of it, and with 2 if the command line is wrong.
-/

open Typikon

/-- What kept a file from being read. -/
def fileError : IO.Error → CommandLine.FileError
  | .noFileOrDirectory .. => .missing
  | .inappropriateType _ code _ => if code = 21 then .directory else .belowFile
  | e => .other e.toString

/-- The text of a file. -/
def readFile (path : String) : IO (Except CommandLine.FileError String) := do
  try
    let bytes ← IO.FS.readBinFile path
    match String.fromUTF8? bytes with
    | some text => return .ok text
    | none => return .error .notText
  catch e =>
    return .error (fileError e)

/-- The current date. Day 719163 is 1 January 1970. -/
def today : IO CivilDate := do
  let date ← Std.Time.PlainDate.now
  return ⟨date.toEpochDay.val + 719163⟩

def main (words : List String) : IO UInt32 := do
  match CommandLine.Arguments.read words with
  | .error e =>
    if e = .helpWanted ∨ e = .versionWanted then
      IO.println e.message
      return 0
    IO.eprintln e.message
    return 2
  | .ok arguments =>
    match ← (CommandLine.run readFile (← today) arguments).run with
    | .error failure =>
      IO.eprintln s!"Error: {failure.message}"
      return 1
    | .ok outcome =>
      IO.print outcome.output
      return if outcome.errors = 0 then 0 else 1
