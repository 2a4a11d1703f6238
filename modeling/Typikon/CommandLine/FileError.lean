/-!
Why files cannot be read. Most failures are met when a file is opened, but a directory can be opened
and a file of bytes too, and only reading them as text fails.
-/

namespace Typikon.CommandLine

inductive FileError where
  | missing
  | belowFile
  | directory
  | nameTooLong
  | nameWithNul
  | notText
  | other (reason : String)
deriving DecidableEq

namespace FileError

/-- What the system says of a failure. -/
def message : FileError → String
  | .missing => "No such file or directory (os error 2)"
  | .belowFile => "Not a directory (os error 20)"
  | .directory => "Is a directory (os error 21)"
  | .nameTooLong => "File name too long (os error 36)"
  | .nameWithNul => "file name contained an unexpected NUL byte"
  | .notText => "stream did not contain valid UTF-8"
  | .other reason => reason

/-- Whether the file was open already when the failure was met. -/
def isLate : FileError → Bool
  | .directory | .notText => true
  | _ => false

end FileError

end Typikon.CommandLine
