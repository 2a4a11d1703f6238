/-!
Quoted strings. Inside the quotes a backslash and the character after it form an escape: `\n` and
`\t` stand for a newline and a tab, `\"` and `\\` for the second character, and every other escape
for itself.
-/

namespace Typikon.Text.Quoted

/-- Splits a text at the quote that closes a string begun before it. A string holds no newline, and
a backslash always takes the next character along. -/
def closing? : List Char → Option (List Char × List Char)
  | [] => none
  | '"' :: s => some ([], s)
  | '\n' :: _ => none
  | ['\\'] => none
  | '\\' :: c :: s =>
    if c = '\n' then none
    else (closing? s).map fun (body, rest) => ('\\' :: c :: body, rest)
  | c :: s => (closing? s).map fun (body, rest) => (c :: body, rest)

/-- The text that the body of a quoted string stands for. -/
def unescape : List Char → List Char
  | [] => []
  | '\\' :: 'n' :: s => '\n' :: unescape s
  | '\\' :: 't' :: s => '\t' :: unescape s
  | '\\' :: '"' :: s => '"' :: unescape s
  | '\\' :: '\\' :: s => '\\' :: unescape s
  | c :: s => c :: unescape s

theorem append_of_closing? {s body rest : List Char} (h : closing? s = some (body, rest)) :
    body ++ '"' :: rest = s := by
  fun_induction closing? s generalizing body rest with
  | case1 => simp at h
  | case2 s => simp at h; obtain ⟨rfl, rfl⟩ := h; rfl
  | case3 => simp at h
  | case4 => simp at h
  | case5 => simp at h
  | case6 c s _ ih =>
    obtain ⟨⟨body', rest'⟩, h', heq⟩ := Option.map_eq_some_iff.1 h
    simp at heq
    obtain ⟨rfl, rfl⟩ := heq
    simp [ih h']
  | case7 c s _ _ _ _ ih =>
    obtain ⟨⟨body', rest'⟩, h', heq⟩ := Option.map_eq_some_iff.1 h
    simp at heq
    obtain ⟨rfl, rfl⟩ := heq
    simp [ih h']

end Typikon.Text.Quoted
