import Typikon.Template.Lexeme

/-!
Scans: the tokens of a text with their locations. Scanning never fails, for text that is no token
becomes a token of an error.
-/

namespace Typikon

/-- The tokens of a text, and the location where the text ends. -/
structure Scan where
  tokens : List Token
  stop : Location
deriving DecidableEq

namespace Scan

def ofChars (loc : Location) (s : List Char) : Scan :=
  let trivia := splitTrivia s
  let loc := loc.advance trivia.1
  match _h : trivia.2 with
  | [] => ⟨[], loc⟩
  | c :: rest =>
    let lexeme := Lexeme.read c rest
    let scan := Scan.ofChars (loc.advance lexeme.text) lexeme.rest
    { scan with tokens := ⟨lexeme.kind, loc⟩ :: scan.tokens }
termination_by s.length
decreasing_by
  have happend := congrArg List.length (splitTrivia_append s)
  have hlt := Lexeme.length_rest_lt c rest
  simp only [List.length_append, trivia] at happend _h
  rw [_h, List.length_cons] at happend
  omega

def ofText (text : String) : Scan :=
  Scan.ofChars .start text.toList

/-- The tokens and the end of the text, which is of no kind. -/
def listing (scan : Scan) : List (Option Token.Kind × Location) :=
  scan.tokens.map (fun token => (some token.kind, token.location)) ++ [(none, scan.stop)]

end Scan

end Typikon
