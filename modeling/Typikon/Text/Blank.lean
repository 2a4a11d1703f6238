/-!
White space: the characters with the Unicode property `White_Space`, and the text that is left when
they are taken off its ends.
-/

namespace Typikon.Text

def isBlank (c : Char) : Bool :=
  ('\t' ≤ c && c ≤ '\r') || c == ' ' || c == '\u0085' || c == '\u00a0' || c == '\u1680' ||
    ('\u2000' ≤ c && c ≤ '\u200a') || c == '\u2028' || c == '\u2029' || c == '\u202f' ||
    c == '\u205f' || c == '\u3000'

def trimLeft (s : List Char) : List Char :=
  s.dropWhile isBlank

def trimRight (s : List Char) : List Char :=
  (s.reverse.dropWhile isBlank).reverse

def trimChars (s : List Char) : List Char :=
  trimRight (trimLeft s)

def trim (s : String) : String :=
  String.ofList (trimChars s.toList)

@[simp]
theorem trimLeft_nil : trimLeft [] = [] := rfl

end Typikon.Text
