import Typikon.Text.Blank

/-!
Closed vocabularies: a fixed list of values, each named by one lowercase word. A template may write
a word in any case and with white space around it; stored documents hold the word itself.
-/

namespace Typikon.Text

def sameLetters (a b : String) : Bool :=
  a.toList.map Char.toLower == b.toList.map Char.toLower

structure Vocabulary (α : Type) where
  /-- What the values are, as a message calls them. -/
  subject : String
  values : List α
  word : α → String

structure UnknownKeyword where
  subject : String
  text : String
  expected : String
deriving DecidableEq

namespace UnknownKeyword

def message (e : UnknownKeyword) : String :=
  s!"invalid {e.subject} \"{e.text}\", expected one of {e.expected}"

end UnknownKeyword

namespace Vocabulary

variable {α : Type}

def expected (v : Vocabulary α) : String :=
  ", ".intercalate (v.values.map v.word)

def find? (v : Vocabulary α) (text : String) : Option α :=
  v.values.find? fun value => sameLetters (v.word value) (trim text)

def read (v : Vocabulary α) (text : String) : Except UnknownKeyword α :=
  match v.find? text with
  | some value => .ok value
  | none => .error ⟨v.subject, text, v.expected⟩

def ofWord? (v : Vocabulary α) (word : String) : Option α :=
  v.values.find? fun value => v.word value == word

end Vocabulary

end Typikon.Text
