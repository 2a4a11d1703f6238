/-!
Locations in the source of a template.
-/

namespace Typikon

/-- A line and a column, both counted from 1. Columns count characters. -/
structure Location where
  line : Nat
  column : Nat
deriving DecidableEq

namespace Location

def start : Location := ⟨1, 1⟩

def text (loc : Location) : String :=
  s!"{loc.line}:{loc.column}"

def le (a b : Location) : Bool :=
  a.line < b.line || (a.line == b.line && a.column ≤ b.column)

/-- The location after a character. Only a newline begins a line. -/
def next (loc : Location) (c : Char) : Location :=
  if c = '\n' then ⟨loc.line + 1, 1⟩ else ⟨loc.line, loc.column + 1⟩

/-- The location after a stretch of text. -/
def advance (loc : Location) (s : List Char) : Location :=
  s.foldl next loc

@[simp]
theorem advance_nil (loc : Location) : loc.advance [] = loc := rfl

@[simp]
theorem advance_cons (loc : Location) (c : Char) (s : List Char) :
    loc.advance (c :: s) = (loc.next c).advance s := rfl

theorem advance_append (loc : Location) (s t : List Char) :
    loc.advance (s ++ t) = (loc.advance s).advance t :=
  List.foldl_append

end Location

end Typikon
