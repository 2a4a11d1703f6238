import Typikon.Index.Basic
import Typikon.Text.Blank
import Std.Data.HashSet

/-!
Sets of entries, and the text files that list them: one path on each line, blank lines and lines
that begin with `#` aside.
-/

namespace Typikon

/-- A set of entries, held as their paths. -/
structure EntrySet where
  paths : Std.HashSet String

namespace EntrySet

def empty : EntrySet := ⟨∅⟩

def ofPaths (paths : List String) : EntrySet :=
  ⟨Std.HashSet.ofList paths⟩

def add (set : EntrySet) (entry : Entry) : EntrySet :=
  ⟨set.paths.insert entry.path⟩

def has (set : EntrySet) (entry : Entry) : Bool :=
  set.paths.contains entry.path

def size (set : EntrySet) : Nat :=
  set.paths.size

/-- The index of a set, which no question changes. -/
def index : Index EntrySet :=
  fun entry set => (.ok (set.has entry), set)

/-- The set with what a line lists. The topic ends at the first slash of the line, and neither topic
nor key may be empty. -/
def addLine (set : EntrySet) (number : Nat) (line : List Char) : Except IndexError EntrySet :=
  let text := Text.trimChars line
  if text = [] ∨ text.head? = some '#' then .ok set
  else
    let topic := text.takeWhile fun c => c ≠ '/'
    let key := (text.dropWhile fun c => c ≠ '/').drop 1
    if topic = [] ∨ key = [] then .error (.malformed number (String.ofList text))
    else .ok (set.add ⟨String.ofList topic, String.ofList key⟩)

/-- The set with what lines list, the first of them having a given number. -/
def addLines (set : EntrySet) (number : Nat) : List (List Char) → Except IndexError EntrySet
  | [] => .ok set
  | line :: lines => do
    let set ← set.addLine number line
    set.addLines (number + 1) lines

def ofText (text : String) : Except IndexError EntrySet :=
  empty.addLines 1 (text.toList.splitOn '\n')

end EntrySet

end Typikon
