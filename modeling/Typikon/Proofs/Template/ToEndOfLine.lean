import Typikon.Proofs.Template.LineByLine

/-!
Comments and strings that are not closed. Either goes to the end of its line and leaves the next
line alone, unless a carriage return stands inside the line. Then neither is recognised: the slashes
or the quote are errors by themselves, and the text behind them is read as code.
-/

namespace Typikon

open Text (HasInnerReturn)

/-! ### Comments -/

theorem splitTrivia_comment {s ending : List Char}
    (h : Text.lineEnding? (Text.lineBack s) = some (ending, [])) :
    splitTrivia ('/' :: '/' :: s) = ('/' :: '/' :: s, []) := by
  have hback : Text.lineBack s = ending := by
    rw [← Text.append_of_lineEnding? h, List.append_nil]
  have hending : splitTrivia ending = (ending, []) := by
    have hmem := Text.mem_of_lineEnding? h
    rw [List.mem_cons, List.mem_cons, List.mem_singleton] at hmem
    rcases hmem with rfl | rfl | rfl
    · rw [splitTrivia]
    · rw [splitTrivia_of_isSpace rfl, splitTrivia]
    · rw [splitTrivia_of_isSpace rfl, splitTrivia_of_isSpace rfl, splitTrivia]
  have hfront := Text.lineFront_append_lineBack s
  rw [hback] at hfront
  rw [splitTrivia.eq_2, h, hback, hending]
  simp [hfront]

/-- Two slashes before an unfinished line begin no comment. -/
theorem splitTrivia_slash {s : List Char} (h : Text.lineEnding? (Text.lineBack s) = none) :
    splitTrivia ('/' :: s) = ([], '/' :: s) := by
  by_cases hslash : ∃ t, s = '/' :: t
  · obtain ⟨t, rfl⟩ := hslash
    have hback : Text.lineBack ('/' :: t) = Text.lineBack t := rfl
    rw [splitTrivia.eq_2, ← hback, h]
    rfl
  · exact splitTrivia_of_not_comment rfl fun t _ hs => hslash ⟨t, hs⟩

namespace Scan

/-! ### Kinds of tokens -/

def kinds (scan : Scan) : List Token.Kind :=
  scan.tokens.map Token.kind

theorem kinds_append (a b : Scan) : (a ++ b).kinds = a.kinds ++ b.kinds :=
  List.map_append

/-- What the tokens are does not depend on where the text stands. -/
theorem kinds_ofChars_eq (loc loc' : Location) (s : List Char) :
    (ofChars loc s).kinds = (ofChars loc' s).kinds := by
  induction loc, s using chars_induction generalizing loc' with
  | stop loc s trivia hsplit =>
    rw [ofChars_of_nil hsplit, ofChars_of_nil hsplit]
    rfl
  | token loc s trivia c rest hsplit ih =>
    rw [ofChars_of_cons hsplit, ofChars_of_cons hsplit]
    exact congrArg (_ :: ·) (ih _)

/-- The kinds of the tokens of a text. -/
def kindsOf (s : List Char) : List Token.Kind :=
  (ofChars .start s).kinds

theorem kindsOf_append_line (s t : List Char) :
    kindsOf (s ++ '\n' :: t) = kindsOf (s ++ ['\n']) ++ kindsOf t := by
  have happend := ofChars_append (Text.LineEndsBetween.of_append_newline s t) .start
  rw [List.append_assoc, List.singleton_append] at happend
  unfold kindsOf
  rw [happend, kinds_append, kinds_ofChars_eq _ .start t]

theorem kindsOf_of_trivia {s : List Char} (h : splitTrivia s = (s, [])) : kindsOf s = [] := by
  unfold kindsOf
  rw [ofChars_of_nil h]
  rfl

theorem kindsOf_of_lexeme {s rest : List Char} {c : Char} (h : splitTrivia s = ([], c :: rest)) :
    kindsOf s = (Lexeme.read c rest).kind :: kindsOf (Lexeme.read c rest).rest := by
  unfold kindsOf
  rw [ofChars_of_cons h]
  exact congrArg (_ :: ·) (kinds_ofChars_eq _ _ _)

/-! ### Single lines -/

theorem kindsOf_slash {s : List Char} (h : Text.lineEnding? (Text.lineBack s) = none) :
    kindsOf ('/' :: s) = .error (.unexpected '/') :: kindsOf s :=
  kindsOf_of_lexeme (splitTrivia_slash h)

section Line

variable {line : List Char}

theorem kindsOf_comment (hline : '\n' ∉ line) :
    kindsOf ('/' :: '/' :: (line ++ ['\n'])) =
      if HasInnerReturn line then
        .error (.unexpected '/') :: .error (.unexpected '/') :: kindsOf (line ++ ['\n'])
      else [] := by
  split
  · next hreturn =>
    have hnone := Text.lineEnding?_eq_none hline hreturn
    rw [kindsOf_slash (s := '/' :: (line ++ ['\n'])) hnone, kindsOf_slash hnone]
  · next hreturn =>
    obtain ⟨ending, hsome⟩ := Text.exists_lineEnding?_eq_some hline hreturn
    exact kindsOf_of_trivia (splitTrivia_comment hsome)

theorem kindsOf_openString (hline : '\n' ∉ line) (hquote : '"' ∉ line) :
    kindsOf ('"' :: (line ++ ['\n'])) =
      if HasInnerReturn line then .error (.unexpected '"') :: kindsOf (line ++ ['\n'])
      else [.error .unterminatedString] := by
  have hsplit := splitTrivia_of_beginsLexeme (c := '"') ⟨rfl, by decide⟩ (line ++ ['\n'])
  have hclosing : Text.Quoted.closing? (line ++ ['\n']) = none :=
    Text.Quoted.closing?_eq_none (by simp [hquote])
  have hread : Lexeme.read '"' (line ++ ['\n']) = Lexeme.ofQuote (line ++ ['\n']) := rfl
  rw [kindsOf_of_lexeme hsplit, hread, Lexeme.ofQuote, hclosing]
  by_cases hreturn : HasInnerReturn line
  · rw [Text.lineEnding?_eq_none hline hreturn, if_pos hreturn]
  · obtain ⟨ending, hsome⟩ := Text.exists_lineEnding?_eq_some hline hreturn
    rw [hsome, if_neg hreturn]
    exact congrArg (_ :: ·) (kindsOf_of_trivia (by rw [splitTrivia]))

end Line

/-! ### Lines of a text -/

/-- A comment has no tokens and a string that is not closed has one, of an error, and the tokens of
the lines behind are left alone. Where a carriage return stands inside the line, there are errors
for the slashes or for the quote and then the tokens of the line. -/
theorem kinds_comment_and_openString {line : String} (h : '\n' ∉ line.toList) (text : String) :
    (ofText ("//" ++ line ++ "\n" ++ text)).kinds =
        (if HasInnerReturn line.toList then
          .error (.unexpected '/') :: .error (.unexpected '/') :: (ofText (line ++ "\n")).kinds
        else []) ++ (ofText text).kinds ∧
      ('"' ∉ line.toList →
        (ofText ("\"" ++ line ++ "\n" ++ text)).kinds =
          (if HasInnerReturn line.toList then
            .error (.unexpected '"') :: (ofText (line ++ "\n")).kinds
          else [.error .unterminatedString]) ++ (ofText text).kinds) := by
  have htext : (line ++ "\n").toList = line.toList ++ ['\n'] := by simp
  have hcomment : ("//" ++ line ++ "\n" ++ text).toList =
      ('/' :: '/' :: line.toList) ++ '\n' :: text.toList := by simp
  have hopen : ("\"" ++ line ++ "\n" ++ text).toList =
      ('"' :: line.toList) ++ '\n' :: text.toList := by simp
  have hkinds (s : String) : (ofText s).kinds = kindsOf s.toList := rfl
  simp only [hkinds, hcomment, hopen, htext]
  rw [kindsOf_append_line ('/' :: '/' :: line.toList), kindsOf_append_line ('"' :: line.toList)]
  refine ⟨congrArg (· ++ kindsOf text.toList) (kindsOf_comment h), fun hquote => ?_⟩
  exact congrArg (· ++ kindsOf text.toList) (kindsOf_openString h hquote)

theorem kinds_comment_and_openString_innerReturn :
    '\n' ∉ "rid\r1".toList ∧ '"' ∉ "rid\r1".toList ∧
      (ofText ("//" ++ "rid\r1" ++ "\n" ++ "nid")).kinds =
        [.error (.unexpected '/'), .error (.unexpected '/'), .word "rid", .integer 1, .word "nid"] ∧
      (ofText ("\"" ++ "rid\r1" ++ "\n" ++ "nid")).kinds =
        [.error (.unexpected '"'), .word "rid", .integer 1, .word "nid"] := by
  have hline : '\n' ∉ "rid\r1".toList := by decide
  have hquote : '"' ∉ "rid\r1".toList := by decide
  have hrest : (ofText ("rid\r1" ++ "\n")).kinds = [.word "rid", .integer 1] := by decide +kernel
  have htext : (ofText "nid").kinds = [.word "nid"] := by decide +kernel
  obtain ⟨hcomment, hopen⟩ := kinds_comment_and_openString hline "nid"
  have hopen := hopen hquote
  rw [if_pos (by decide), hrest, htext] at hcomment hopen
  exact ⟨hline, hquote, hcomment, hopen⟩

/-- Not every comment and not every string that is not closed goes to the end of its line. -/
theorem not_toEndOfLine_innerReturn :
    (¬∀ line text : String, '\n' ∉ line.toList →
      (ofText ("//" ++ line ++ "\n" ++ text)).kinds = (ofText text).kinds) ∧
    ¬∀ line text : String, '\n' ∉ line.toList → '"' ∉ line.toList →
      (ofText ("\"" ++ line ++ "\n" ++ text)).kinds =
        .error .unterminatedString :: (ofText text).kinds := by
  constructor
  · intro h
    exact absurd (h "a\rb" "" (by decide)) (by decide +kernel)
  · intro h
    exact absurd (h "a\rb" "" (by decide) (by decide)) (by decide +kernel)

end Scan

end Typikon
