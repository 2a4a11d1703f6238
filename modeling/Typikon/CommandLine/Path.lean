/-!
Paths of files: the directory that a path leads to, and paths relative to a directory. The parts of
a path stand between slashes, and a part that is a single dot counts for nothing unless it comes
first.
-/

namespace Typikon.CommandLine.Path

/-- Drops the slashes and lone dots that a path given back to front begins with. A dot that all of
the path consists of stays. -/
def dropEmptyParts : List Char → List Char
  | '/' :: rest => dropEmptyParts rest
  | '.' :: '/' :: rest => dropEmptyParts rest
  | path => path

def directory (path : String) : String :=
  let front := path.toList.reverse.dropWhile fun c => c ≠ '/'
  match dropEmptyParts front with
  | [] => if front = [] then "" else "/"
  | rest => String.ofList rest.reverse

/-- A path as seen from outside the directory that it is relative to. -/
def within (directory path : String) : String :=
  if directory = "" ∨ path.startsWith "/" then path
  else if directory.endsWith "/" then directory ++ path
  else directory ++ "/" ++ path

end Typikon.CommandLine.Path
