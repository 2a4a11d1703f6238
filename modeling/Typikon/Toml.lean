/-!
The part of TOML that settings are written in: lines that assign a string or a truth value to a key,
blank lines and comments. Strings stand in double quotes, with escapes, or in single quotes,
without.
-/

namespace Typikon.Toml

inductive Value where
  | string (s : String)
  | boolean (b : Bool)
deriving DecidableEq

def isBlank (c : Char) : Bool :=
  c == ' ' || c == '\t'

def skipBlanks (s : List Char) : List Char :=
  s.dropWhile isBlank

/-- The control characters, which neither strings nor comments may hold. -/
def isControl (c : Char) : Bool :=
  (c < ' ' && c != '\t') || c == '\u007f'

def isKeyChar (c : Char) : Bool :=
  c.isAlphanum || c == '_' || c == '-'

def hexDigit? (c : Char) : Option Nat :=
  if c.isDigit then some (c.toNat - '0'.toNat)
  else if 'a' ≤ c ∧ c ≤ 'f' then some (c.toNat - 'a'.toNat + 10)
  else if 'A' ≤ c ∧ c ≤ 'F' then some (c.toNat - 'A'.toNat + 10)
  else none

def charOfHex? (digits : List Char) : Option Char := do
  let values ← digits.mapM hexDigit?
  let code := values.foldl (16 * · + ·) 0
  if code.isValidChar then some (Char.ofNat code) else none

def escaped? : Char → Option Char
  | 'b' => some '\u0008'
  | 't' => some '\t'
  | 'n' => some '\n'
  | 'f' => some '\u000c'
  | 'r' => some '\r'
  | '"' => some '"'
  | '\\' => some '\\'
  | _ => none

/-- Reads a string in double quotes, of which the first has been read, and gives the rest too. -/
def basicString? : List Char → Option (List Char × List Char)
  | [] => none
  | '"' :: rest => some ([], rest)
  | '\\' :: 'u' :: a :: b :: c :: d :: rest => do
    let char ← charOfHex? [a, b, c, d]
    let (chars, rest) ← basicString? rest
    some (char :: chars, rest)
  | '\\' :: 'U' :: a :: b :: c :: d :: e :: f :: g :: h :: rest => do
    let char ← charOfHex? [a, b, c, d, e, f, g, h]
    let (chars, rest) ← basicString? rest
    some (char :: chars, rest)
  | '\\' :: letter :: rest => do
    let char ← escaped? letter
    let (chars, rest) ← basicString? rest
    some (char :: chars, rest)
  | c :: rest =>
    if isControl c then none
    else do
      let (chars, rest) ← basicString? rest
      some (c :: chars, rest)

/-- Reads a string in single quotes, of which the first has been read, and gives the rest too. -/
def literalString? : List Char → Option (List Char × List Char)
  | [] => none
  | '\'' :: rest => some ([], rest)
  | c :: rest =>
    if isControl c then none
    else do
      let (chars, rest) ← literalString? rest
      some (c :: chars, rest)

def key? : List Char → Option (String × List Char)
  | '"' :: rest => (basicString? rest).map fun (chars, rest) => (String.ofList chars, rest)
  | '\'' :: rest => (literalString? rest).map fun (chars, rest) => (String.ofList chars, rest)
  | s =>
    let chars := s.takeWhile isKeyChar
    if chars = [] then none else some (String.ofList chars, s.dropWhile isKeyChar)

def value? : List Char → Option (Value × List Char)
  | '"' :: rest =>
    (basicString? rest).map fun (chars, rest) => (.string (String.ofList chars), rest)
  | '\'' :: rest =>
    (literalString? rest).map fun (chars, rest) => (.string (String.ofList chars), rest)
  | 't' :: 'r' :: 'u' :: 'e' :: rest => some (.boolean true, rest)
  | 'f' :: 'a' :: 'l' :: 's' :: 'e' :: rest => some (.boolean false, rest)
  | _ => none

def isLineEnd (s : List Char) : Bool :=
  match skipBlanks s with
  | [] => true
  | '#' :: comment => !comment.any isControl
  | _ => false

def assignment? (line : List Char) : Option (String × Value) := do
  let (key, rest) ← key? (skipBlanks line)
  let '=' :: rest := skipBlanks rest | none
  let (value, rest) ← value? (skipBlanks rest)
  if isLineEnd rest then some (key, value) else none

/-- The lines of a text. A line ends at a newline, which a carriage return may precede, and no other
carriage return ends one. -/
def lines : List Char → List (List Char)
  | [] => [[]]
  | '\n' :: s => [] :: lines s
  | '\r' :: '\n' :: s => [] :: lines s
  | c :: s =>
    match lines s with
    | [] => [[c]]
    | line :: rest => (c :: line) :: rest

/-- A text without the byte order mark that it may begin with. -/
def skipByteOrderMark : List Char → List Char
  | '\ufeff' :: s => s
  | s => s

/-- The assignments of a text in order, unless a line is malformed. -/
def assignments? (text : String) : Option (List (String × Value)) :=
  ((lines (skipByteOrderMark text.toList)).filter fun line => !isLineEnd line).mapM assignment?

end Typikon.Toml
