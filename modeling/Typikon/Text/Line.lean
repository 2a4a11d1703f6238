/-!
Lines. A line ends at a newline, which a carriage return may precede, or at the end of the text. A
carriage return anywhere else ends nothing.
-/

namespace Typikon.Text

def isLineBreak (c : Char) : Bool :=
  c == '\n' || c == '\r'

/-- The characters before the first newline or carriage return. -/
def lineFront (s : List Char) : List Char :=
  s.takeWhile fun c => !isLineBreak c

/-- The text from the first newline or carriage return on. -/
def lineBack (s : List Char) : List Char :=
  s.dropWhile fun c => !isLineBreak c

/-- Splits off a line ending, which is empty at the end of the text. -/
def lineEnding? : List Char → Option (List Char × List Char)
  | [] => some ([], [])
  | '\n' :: s => some (['\n'], s)
  | '\r' :: '\n' :: s => some (['\r', '\n'], s)
  | _ => none

theorem lineFront_append_lineBack (s : List Char) : lineFront s ++ lineBack s = s :=
  List.takeWhile_append_dropWhile

theorem append_of_lineEnding? {s ending rest : List Char}
    (h : lineEnding? s = some (ending, rest)) : ending ++ rest = s := by
  unfold lineEnding? at h
  split at h <;> simp at h <;> obtain ⟨rfl, rfl⟩ := h <;> rfl

end Typikon.Text
