import Typikon.Document.LibraryId

/-!
References to text, which is either given or held in a library.
-/

namespace Typikon

inductive Reference where
  | literal (text : String)
  /-- A path as the template has it, and as it reads on the day of the template. -/
  | relative (path resolved : String) (mode weekday : Option Nat)
  | absolute (path : String)
deriving DecidableEq

namespace Reference

def path? : Reference → Option String
  | .literal _ => none
  | .relative _ resolved _ _ => some resolved
  | .absolute path => some path

def canonical : Reference → String
  | .literal text => text
  | .relative _ resolved _ _ => resolved
  | .absolute path => path

/-- The path to look up, after the library to look in. -/
def qualified? (r : Reference) (library : LibraryId) : Option String :=
  r.path?.map fun path => library.text ++ "/" ++ path

end Reference

end Typikon
