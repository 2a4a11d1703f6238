import Typikon.Template.Token
import Typikon.Text.Alphanumeric
import Typikon.Text.Decimal
import Typikon.Text.Line
import Typikon.Text.Quoted

/-!
Lexemes: the stretches of text that make up the source of a template. What is no token is a lexeme
too, of an error, so that every text falls into lexemes and the trivia between them.
-/

namespace Typikon

def isSpace (c : Char) : Bool :=
  c == ' ' || c == '\t' || c == '\r' || c == '\n'

def isWordChar (c : Char) : Bool :=
  Text.isAlphanumeric c || c == '_' || c == '.' || c == '-' || c == '*'

/-- Splits off the spaces and comments at the front of a text. A comment goes from `//` to the end
of its line. -/
def splitTrivia : List Char → List Char × List Char
  | [] => ([], [])
  | '/' :: '/' :: s =>
    if (Text.lineEnding? (Text.lineBack s)).isSome then
      let (trivia, rest) := splitTrivia (Text.lineBack s)
      ('/' :: '/' :: (Text.lineFront s ++ trivia), rest)
    else ([], '/' :: '/' :: s)
  | c :: s =>
    if isSpace c then
      let (trivia, rest) := splitTrivia s
      (c :: trivia, rest)
    else ([], c :: s)
termination_by s => s.length
decreasing_by
  · have : (Text.lineBack s).length ≤ s.length := (List.dropWhile_suffix _).length_le
    simp only [List.length_cons]
    omega
  · simp

structure Lexeme where
  kind : Token.Kind
  text : List Char
  rest : List Char

namespace Lexeme

/-- What a run of word characters is: an integer of 64 bits if it reads as one, else a word. -/
def wordKind (text : List Char) : Token.Kind :=
  match Text.Decimal.int64? text with
  | some n => .integer n
  | none =>
    if text.head? = some '-' then .error (.invalidInteger (String.ofList text))
    else .word (String.ofList text)

/-- The lexeme of a quote and the text after it. A string that is not closed takes in the rest of
its line. -/
def ofQuote (s : List Char) : Lexeme :=
  match Text.Quoted.closing? s with
  | some (body, rest) =>
    ⟨.string (String.ofList (Text.Quoted.unescape body)), '"' :: (body ++ ['"']), rest⟩
  | none =>
    match Text.lineEnding? (Text.lineBack s) with
    | some (ending, rest) =>
      ⟨.error .unterminatedString, '"' :: (Text.lineFront s ++ ending), rest⟩
    | none => ⟨.error (.unexpected '"'), ['"'], s⟩

/-- The lexeme of `@` and the text after it. -/
def ofAt (s : List Char) : Lexeme :=
  match s.takeWhile isWordChar with
  | [] => ⟨.error .unnamedDirective, ['@'], s⟩
  | name => ⟨.directive (String.ofList name), '@' :: name, s.dropWhile isWordChar⟩

def read (c : Char) (s : List Char) : Lexeme :=
  match c with
  | '"' => ofQuote s
  | '=' => ⟨.equals, ['='], s⟩
  | '\x7b' => ⟨.openBrace, [c], s⟩
  | '\x7d' => ⟨.closeBrace, [c], s⟩
  | '(' => ⟨.openParen, ['('], s⟩
  | ')' => ⟨.closeParen, [')'], s⟩
  | '@' => ofAt s
  | c =>
    if isWordChar c then
      let text := c :: s.takeWhile isWordChar
      ⟨wordKind text, text, s.dropWhile isWordChar⟩
    else ⟨.error (.unexpected c), [c], s⟩

theorem text_append_rest_ofQuote (s : List Char) :
    (ofQuote s).text ++ (ofQuote s).rest = '"' :: s := by
  unfold ofQuote
  split
  next body rest h => simp [← Text.Quoted.append_of_closing? h]
  next =>
    split
    next ending rest h =>
      simp [Text.append_of_lineEnding? h, Text.lineFront_append_lineBack]
    next => rfl

theorem text_append_rest_ofAt (s : List Char) :
    (ofAt s).text ++ (ofAt s).rest = '@' :: s := by
  unfold ofAt
  split
  · rfl
  · simp

/-- A lexeme and the text after it make up the text it was read from. -/
theorem text_append_rest (c : Char) (s : List Char) :
    (read c s).text ++ (read c s).rest = c :: s := by
  unfold read
  split <;> try rfl
  · exact text_append_rest_ofQuote s
  · exact text_append_rest_ofAt s
  · split
    · simp
    · rfl

theorem text_ne_nil (c : Char) (s : List Char) : (read c s).text ≠ [] := by
  unfold read ofQuote ofAt
  repeat' split
  all_goals simp

theorem length_rest_lt (c : Char) (s : List Char) :
    (read c s).rest.length < s.length + 1 := by
  have happend := congrArg List.length (text_append_rest c s)
  have hpos := List.length_pos_iff.2 (text_ne_nil c s)
  simp only [List.length_append, List.length_cons] at happend
  omega

end Lexeme

theorem splitTrivia_append (s : List Char) :
    (splitTrivia s).1 ++ (splitTrivia s).2 = s := by
  fun_induction splitTrivia s with
  | case1 => rfl
  | case2 s _ trivia rest heq ih =>
    rw [heq] at ih
    simp [ih, Text.lineFront_append_lineBack]
  | case3 => rfl
  | case4 c s _ _ trivia rest heq ih =>
    rw [heq] at ih
    simpa using ih
  | case5 => rfl

end Typikon
