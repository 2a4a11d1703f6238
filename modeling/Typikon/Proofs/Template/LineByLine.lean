import Typikon.Proofs.Template.Covering
import Typikon.Proofs.Text.Lines

/-!
Texts are scanned line by line. The tokens of a line do not depend on the lines around it: those of
a text that goes on after a newline are the tokens up to there and, further down, those of the rest.
Only where the first text ends with a carriage return does it end with half of a line ending.
-/

namespace Typikon

open Text (LineEndsBetween)

/-! ### Trivia -/

/-- Trivia that fill the first text go on in the second, and else end before its last lexemes. -/
theorem splitTrivia_of_lineEndsBetween {s t : List Char} (h : LineEndsBetween s t) :
    splitTrivia (s ++ t) =
      if (splitTrivia s).2 = [] then (s ++ (splitTrivia t).1, (splitTrivia t).2)
      else ((splitTrivia s).1, (splitTrivia s).2 ++ t) := by
  fun_induction splitTrivia s with
  | case1 => simp
  | case2 s hend trivia rest heq ih =>
    have hmem := h.tail.newline_mem (by decide)
    have hback := h.tail.tail.back
    rw [← Text.isSome_lineEnding?_lineBack_append hmem hback.ne_return] at hend
    rw [List.cons_append, List.cons_append, splitTrivia.eq_2, if_pos hend,
      Text.lineBack_append hmem, Text.lineFront_append hmem, ih hback, heq]
    dsimp only
    split
    · simp [← List.append_assoc, Text.lineFront_append_lineBack]
    · rfl
  | case3 s hend =>
    have hmem := h.tail.newline_mem (by decide)
    rw [← Text.isSome_lineEnding?_lineBack_append hmem h.tail.tail.back.ne_return] at hend
    rw [List.cons_append, List.cons_append, splitTrivia.eq_2, if_neg hend, if_neg (by simp)]
  | case4 c s hcomment hspace trivia rest heq ih =>
    rw [List.cons_append, splitTrivia_of_isSpace hspace, ih h.tail, heq]
    dsimp only
    split
    · rfl
    · rfl
  | case5 c s hcomment hspace =>
    have hspace : isSpace c = false := Bool.not_eq_true _ ▸ hspace
    have hnewline : c ≠ '\n' := by
      rintro rfl
      cases hspace
    have hnext : ∀ u, c = '/' → s ++ t = '/' :: u → False := by
      intro u hc happend
      cases s with
      | nil =>
        obtain ⟨b, rfl⟩ := Text.exists_cons_of_newline_mem (h.newline_mem hnewline) List.not_mem_nil
        cases happend
      | cons d s =>
        obtain ⟨rfl, -⟩ := List.cons.inj happend
        exact hcomment s hc rfl
    rw [List.cons_append, splitTrivia_of_not_comment hspace hnext, if_neg (List.cons_ne_nil _ _)]

/-! ### Lexemes -/

namespace Lexeme

theorem ofQuote_append {s t : List Char} (h : '\n' ∈ s ++ t.take 1)
    (hreturn : Text.lineBack s ≠ ['\r']) :
    ofQuote (s ++ t) = { ofQuote s with rest := (ofQuote s).rest ++ t } ∨
      (ofQuote s).rest = [] ∧ ∃ b, t = '\n' :: b ∧
        ofQuote (s ++ t) = ⟨(ofQuote s).kind, (ofQuote s).text ++ ['\n'], b⟩ := by
  unfold ofQuote
  rw [Text.Quoted.closing?_append h, Text.lineFront_append h]
  cases hclosing : Text.Quoted.closing? s with
  | some parts => exact .inl rfl
  | none =>
    rcases Text.lineEnding?_lineBack_append h hreturn with hsame | ⟨hnil, b, rfl⟩
    · rw [hsame]
      cases hend : Text.lineEnding? (Text.lineBack s) with
      | some parts => exact .inl rfl
      | none => exact .inl rfl
    · rw [Text.lineBack_append h, hnil]
      refine .inr ⟨rfl, b, rfl, ?_⟩
      simp [Text.lineEnding?]

theorem ofAt_append {s t : List Char} (h : '\n' ∈ s ++ t.take 1) :
    ofAt (s ++ t) = { ofAt s with rest := (ofAt s).rest ++ t } := by
  unfold ofAt
  rw [Text.takeWhile_append_of_newline_mem rfl h, Text.dropWhile_append_of_newline_mem rfl h]
  cases s.takeWhile isWordChar with
  | nil => rfl
  | cons c name => rfl

/-- A lexeme is the same if a text comes behind. Only the lexeme of a string that is not closed, if
it takes in the first text, takes in the newline that the second one begins with. -/
theorem read_append {c : Char} {s t : List Char} (h : LineEndsBetween (c :: s) t)
    (hc : isSpace c = false) :
    read c (s ++ t) = { read c s with rest := (read c s).rest ++ t } ∨
      (read c s).rest = [] ∧ ∃ b, t = '\n' :: b ∧
        read c (s ++ t) = ⟨(read c s).kind, (read c s).text ++ ['\n'], b⟩ := by
  have hmem := h.newline_mem (by rintro rfl; cases hc)
  unfold read
  split
  · exact ofQuote_append hmem h.tail.back.ne_return
  · exact .inl rfl
  · exact .inl rfl
  · exact .inl rfl
  · exact .inl rfl
  · exact .inl rfl
  · exact .inl (ofAt_append hmem)
  · rw [Text.takeWhile_append_of_newline_mem rfl hmem,
      Text.dropWhile_append_of_newline_mem rfl hmem]
    split
    · exact .inl rfl
    · exact .inl rfl

end Lexeme

/-! ### Scans -/

namespace Scan

/-- One scan after another, where the first one ends. -/
instance : Append Scan :=
  ⟨fun a b => ⟨a.tokens ++ b.tokens, b.stop⟩⟩

theorem append_eq (a b : Scan) : a ++ b = ⟨a.tokens ++ b.tokens, b.stop⟩ := rfl

/-- A text is scanned like its beginning and, from there on, like the rest, wherever a line ends. -/
theorem ofChars_append {s t : List Char} (h : LineEndsBetween s t) (loc : Location) :
    ofChars loc (s ++ t) = ofChars loc s ++ ofChars (loc.advance s) t := by
  induction loc, s using chars_induction with
  | stop loc s trivia hsplit =>
    have htrivia := splitTrivia_of_lineEndsBetween h
    rw [hsplit, if_pos rfl] at htrivia
    rw [ofChars_append_of_trivia htrivia, ofChars_of_nil hsplit]
    rfl
  | token loc s trivia c rest hsplit ih =>
    have htrivia := splitTrivia_of_lineEndsBetween h
    rw [hsplit, if_neg (List.cons_ne_nil c rest), List.cons_append] at htrivia
    have happend := splitTrivia_append s
    rw [hsplit] at happend
    have hread := Lexeme.text_append_rest c rest
    have hlexeme : LineEndsBetween (c :: rest) t := h.of_suffix ⟨trivia, happend⟩
    have hlast : loc.advance s = ((loc.advance trivia).advance (Lexeme.read c rest).text).advance
        (Lexeme.read c rest).rest := by
      rw [← Location.advance_append, ← Location.advance_append, hread, happend]
    rw [ofChars_of_cons htrivia, ofChars_of_cons hsplit, hlast]
    rcases Lexeme.read_append hlexeme (isSpace_of_splitTrivia hsplit) with
      hsame | ⟨hnil, b, rfl, hsame⟩
    · rw [hsame, ih (hlexeme.of_suffix ⟨_, hread⟩)]
      rfl
    · rw [hsame, hnil, ofChars_nil, ofChars_of_isSpace rfl, Location.advance_append]
      rfl

/-- A scan some lines further down. -/
def down (scan : Scan) (lines : Nat) : Scan :=
  ⟨scan.tokens.map fun token => ⟨token.kind, token.location.down lines⟩, scan.stop.down lines⟩

theorem ofChars_down (loc : Location) (lines : Nat) (s : List Char) :
    ofChars (loc.down lines) s = (ofChars loc s).down lines := by
  induction loc, s using chars_induction with
  | stop loc s trivia hsplit =>
    rw [ofChars_of_nil hsplit, ofChars_of_nil hsplit, Location.advance_down]
    rfl
  | token loc s trivia c rest hsplit ih =>
    rw [ofChars_of_cons hsplit, ofChars_of_cons hsplit, Location.advance_down,
      Location.advance_down, ih]
    rfl

theorem listing_append (a b : Scan) : (a ++ b).listing = a.listing.dropLast ++ b.listing := by
  simp [append_eq, listing]

theorem listing_down (scan : Scan) (lines : Nat) :
    (scan.down lines).listing =
      scan.listing.map fun (kind, loc) => (kind, loc.down lines) := by
  simp [down, listing, Function.comp_def]

/-- The tokens of a text that goes on after a newline are those up to the newline and those of the
rest, moved down by as many lines as end before it. -/
theorem listing_ofText_newline {a : String} (h : a.toList.getLast? ≠ some '\r') (b : String) :
    (ofText (a ++ "\n" ++ b)).listing =
      (ofText a).listing.dropLast ++
        (ofText b).listing.map fun (kind, loc) => (kind, loc.down (1 + a.toList.count '\n')) := by
  have hlines : LineEndsBetween a.toList ('\n' :: b.toList) := .behind rfl h
  have htext : (a ++ "\n" ++ b).toList = a.toList ++ '\n' :: b.toList := by simp
  have hnext : (Location.start.advance a.toList).next '\n' =
      Location.start.down (1 + a.toList.count '\n') := by
    rw [← Location.after_nil, Location.advance_after, List.nil_append,
      Location.next_newline_after, Location.after_nil]
  unfold ofText
  rw [htext, ofChars_append hlines, ofChars_of_isSpace rfl, hnext, ofChars_down, listing_append,
    listing_down]

/-- A quote in either line closes nothing in the other one. -/
theorem listing_ofText_newline_openStrings :
    "p.a\n \"open".toList.getLast? ≠ some '\r' ∧
      (ofText ("p.a\n \"open" ++ "\n" ++ " close\"")).listing =
        [(some (.word "p.a"), ⟨1, 1⟩), (some (.error .unterminatedString), ⟨2, 2⟩),
          (some (.word "close"), ⟨3, 2⟩), (some (.error .unterminatedString), ⟨3, 7⟩),
          (none, ⟨3, 8⟩)] := by
  have hreturn : "p.a\n \"open".toList.getLast? ≠ some '\r' := by decide
  refine ⟨hreturn, (listing_ofText_newline hreturn " close\"").trans ?_⟩
  decide +kernel

end Scan

end Typikon
