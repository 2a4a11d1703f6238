import Typikon.Json.Basic

/-!
The text of JSON values, spread over lines: each item and field on a line of its own, two spaces
deeper than what it is in. Only quotes, backslashes and control characters are escaped.
-/

namespace Typikon.Json

def escape (c : Char) : List Char :=
  match c with
  | '"' => ['\\', '"']
  | '\\' => ['\\', '\\']
  | '\u0008' => ['\\', 'b']
  | '\u000c' => ['\\', 'f']
  | '\n' => ['\\', 'n']
  | '\r' => ['\\', 'r']
  | '\t' => ['\\', 't']
  | c =>
    if c < ' ' then
      ['\\', 'u', '0', '0', Nat.digitChar (c.toNat / 16), Nat.digitChar (c.toNat % 16)]
    else [c]

def quoted (s : String) : String :=
  "\"" ++ String.ofList (s.toList.flatMap escape) ++ "\""

/-- A line break and the white space that a line at a depth begins with. -/
def lineBreak (depth : Nat) : String :=
  "\n" ++ String.ofList (List.replicate (2 * depth) ' ')

def bracketed (opening closing : String) (depth : Nat) (parts : List String) : String :=
  if parts.isEmpty then opening ++ closing
  else
    opening ++ ",".intercalate (parts.map (lineBreak (depth + 1) ++ ·)) ++ lineBreak depth ++
      closing

mutual

def textAt (depth : Nat) : Json → String
  | .null => "null"
  | .bool b => if b then "true" else "false"
  | .number n => toString n
  | .string s => quoted s
  | .array items => bracketed "[" "]" depth (itemTexts (depth + 1) items)
  | .object fields => bracketed "\x7b" "\x7d" depth (fieldTexts (depth + 1) fields)

def itemTexts (depth : Nat) : List Json → List String
  | [] => []
  | item :: items => textAt depth item :: itemTexts depth items

def fieldTexts (depth : Nat) : List (String × Json) → List String
  | [] => []
  | (name, value) :: fields =>
    (quoted name ++ ": " ++ textAt depth value) :: fieldTexts depth fields

end

def text (j : Json) : String :=
  textAt 0 j

end Typikon.Json
