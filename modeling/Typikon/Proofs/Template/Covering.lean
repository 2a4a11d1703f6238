import Mathlib.Data.List.TakeWhile
import Typikon.Proofs.Template.Positions
import Typikon.Proofs.Template.Rendering
import Typikon.Proofs.Text.Lines

/-!
A scan covers its text. The tokens stand for stretches of the text, one after another, with nothing
but white space and comments between them, and each is located where its stretch begins. So nothing
in a text is passed over in silence, and the locations of the tokens grow.
-/

namespace Typikon

namespace Text

/-- The text ends here, or its line does. -/
def AtLineEnd (s : List Char) : Prop :=
  s = [] ∨ (∃ rest, s = '\n' :: rest) ∨ ∃ rest, s = '\r' :: '\n' :: rest

theorem atLineEnd_of_isSome_lineEnding? {s : List Char} (h : (lineEnding? s).isSome = true) :
    AtLineEnd s := by
  unfold lineEnding? at h
  split at h
  · exact .inl rfl
  · exact .inr (.inl ⟨_, rfl⟩)
  · exact .inr (.inr ⟨_, rfl⟩)
  · cases h

theorem mem_of_lineEnding? {s ending rest : List Char}
    (h : lineEnding? s = some (ending, rest)) : ending ∈ [[], ['\n'], ['\r', '\n']] := by
  unfold lineEnding? at h
  split at h <;> cases h <;> decide

/-- What stands between the quotes of a string: no newline, and no quote or backslash but in an
escape. -/
inductive Quoted.IsBody : List Char → Prop
  | nil : IsBody []
  | plain {c : Char} {s : List Char} (hquote : c ≠ '"') (hslash : c ≠ '\\') (hnewline : c ≠ '\n')
    (h : IsBody s) : IsBody (c :: s)
  | escape {c : Char} {s : List Char} (hnewline : c ≠ '\n') (h : IsBody s) :
    IsBody ('\\' :: c :: s)

theorem Quoted.isBody_of_closing? {s body rest : List Char}
    (h : closing? s = some (body, rest)) : IsBody body := by
  fun_induction closing? s generalizing body rest with
  | case1 => cases h
  | case2 s =>
    cases h
    exact .nil
  | case3 => cases h
  | case4 => cases h
  | case5 => cases h
  | case6 c s hnewline ih =>
    obtain ⟨⟨body', rest'⟩, h', heq⟩ := Option.map_eq_some_iff.1 h
    cases heq
    exact .escape hnewline (ih h')
  | case7 c s hquote hnewline hlast hescape ih =>
    obtain ⟨⟨body', rest'⟩, h', heq⟩ := Option.map_eq_some_iff.1 h
    cases heq
    exact .plain hquote (ne_backslash hlast hescape) hnewline (ih h')

end Text

/-! ### Between the tokens -/

/-- White space and comments before a text. A comment goes from `//` to the end of its line. -/
inductive IsTrivia (rest : List Char) : List Char → Prop
  | nil : IsTrivia rest []
  | space {c : Char} {s : List Char} (hc : c ∈ [' ', '\t', '\r', '\n']) (h : IsTrivia rest s) :
    IsTrivia rest (c :: s)
  | comment {body s : List Char} (hbody : ∀ c ∈ body, c ≠ '\n' ∧ c ≠ '\r')
    (hend : Text.AtLineEnd (s ++ rest)) (h : IsTrivia rest s) :
    IsTrivia rest ('/' :: '/' :: (body ++ s))

theorem isSpace_iff {c : Char} : isSpace c = true ↔ c ∈ [' ', '\t', '\r', '\n'] := by
  simp [isSpace, or_assoc]

theorem isTrivia_splitTrivia (s : List Char) : IsTrivia (splitTrivia s).2 (splitTrivia s).1 := by
  fun_induction splitTrivia s with
  | case1 => exact .nil
  | case2 s hend trivia rest heq ih =>
    have happend := splitTrivia_append (Text.lineBack s)
    rw [heq] at happend ih
    refine .comment (fun c hc => Text.ne_of_mem_lineFront hc) ?_ ih
    rw [happend]
    exact Text.atLineEnd_of_isSome_lineEnding? hend
  | case3 => exact .nil
  | case4 c s _ hspace trivia rest heq ih =>
    rw [heq] at ih
    exact .space (isSpace_iff.mp hspace) ih
  | case5 => exact .nil

theorem isSpace_of_splitTrivia {s trivia rest : List Char} {c : Char}
    (h : splitTrivia s = (trivia, c :: rest)) : isSpace c = false := by
  fun_induction splitTrivia s generalizing trivia rest with
  | case1 => cases h
  | case2 s _ trivia' rest' heq ih =>
    cases h
    exact ih heq
  | case3 =>
    cases h
    rfl
  | case4 c' s _ _ trivia' rest' heq ih =>
    cases h
    exact ih heq
  | case5 c' s _ hspace =>
    cases h
    exact Bool.not_eq_true _ ▸ hspace

/-! ### The text of a token -/

/-- The stretch of text that an error stands for. -/
def LexicalError.IsWritten : LexicalError → List Char → Prop
  | .unexpected c, text =>
    text = [c] ∧ isSpace c = false ∧ isWordChar c = false ∧
      c ∉ ['=', '\x7b', '\x7d', '(', ')', '@']
  | .unnamedDirective, text => text = ['@']
  | .invalidInteger name, text =>
    text = name.toList ∧ IsName name ∧ text.head? = some '-' ∧ Text.Decimal.int64? text = none
  | .unterminatedString, text =>
    ∃ body ending, text = '"' :: (body ++ ending) ∧ (∀ c ∈ body, c ≠ '\n' ∧ c ≠ '\r') ∧
      ending ∈ [[], ['\n'], ['\r', '\n']]

/-- The stretch of text that a token stands for. -/
def Token.Kind.IsWritten : Token.Kind → List Char → Prop
  | .string value, text =>
    ∃ body, text = '"' :: (body ++ ['"']) ∧ Text.Quoted.IsBody body ∧
      value = String.ofList (Text.Quoted.unescape body)
  | .integer n, text => IsName (String.ofList text) ∧ Text.Decimal.int64? text = some n
  | .word name, text => text = name.toList ∧ IsBareWord name
  | .directive name, text => text = '@' :: name.toList ∧ IsName name
  | .equals, text => text = ['=']
  | .openBrace, text => text = ['\x7b']
  | .closeBrace, text => text = ['\x7d']
  | .openParen, text => text = ['(']
  | .closeParen, text => text = [')']
  | .error cause, text => cause.IsWritten text

theorem isName_ofList {text : List Char} (hne : text ≠ [])
    (hchars : ∀ c ∈ text, isWordChar c = true) : IsName (String.ofList text) := by
  unfold IsName
  rw [String.toList_ofList]
  exact ⟨hne, List.all_eq_true.mpr hchars⟩

namespace Lexeme

theorem isWritten_wordKind {text : List Char} (hne : text ≠ [])
    (hchars : ∀ c ∈ text, isWordChar c = true) : (wordKind text).IsWritten text := by
  have hname := isName_ofList hne hchars
  have htext : (String.ofList text).toList = text := String.toList_ofList
  unfold wordKind
  split
  · next n hint => exact ⟨hname, hint⟩
  · next hint =>
    split
    · next hhead => exact ⟨htext.symm, hname, hhead, hint⟩
    · next hhead =>
      refine ⟨htext.symm, hname, ?_, ?_⟩
      · rwa [htext]
      · rwa [htext]

theorem isWritten_ofQuote (s : List Char) : (ofQuote s).kind.IsWritten (ofQuote s).text := by
  unfold ofQuote
  split
  · next body rest h => exact ⟨body, rfl, Text.Quoted.isBody_of_closing? h, rfl⟩
  · split
    · next ending rest h =>
      exact ⟨_, ending, rfl, fun c hc => Text.ne_of_mem_lineFront hc, Text.mem_of_lineEnding? h⟩
    · exact ⟨rfl, by decide, by decide, by decide⟩

theorem isWritten_ofAt (s : List Char) : (ofAt s).kind.IsWritten (ofAt s).text := by
  unfold ofAt
  split
  · exact rfl
  · next hne =>
    refine ⟨by rw [String.toList_ofList], isName_ofList hne ?_⟩
    exact fun c hc => List.mem_takeWhile_imp hc

theorem isWritten_read {c : Char} (h : isSpace c = false) (s : List Char) :
    (read c s).kind.IsWritten (read c s).text := by
  unfold read
  split
  · exact isWritten_ofQuote s
  · exact rfl
  · exact rfl
  · exact rfl
  · exact rfl
  · exact rfl
  · exact isWritten_ofAt s
  · split
    · next hc =>
      refine isWritten_wordKind (List.cons_ne_nil _ _) ?_
      rw [List.forall_mem_cons]
      exact ⟨hc, fun d hd => List.mem_takeWhile_imp hd⟩
    · next hc =>
      refine ⟨rfl, h, Bool.not_eq_true _ ▸ hc, ?_⟩
      simp_all

end Lexeme

/-! ### The scan of a text -/

namespace Scan

/-- A text is scanned lexeme by lexeme, until only trivia are left. -/
@[elab_as_elim]
theorem chars_induction {motive : Location → List Char → Prop}
    (stop : ∀ loc s trivia, splitTrivia s = (trivia, []) → motive loc s)
    (token : ∀ loc s trivia c rest, splitTrivia s = (trivia, c :: rest) →
      motive ((loc.advance trivia).advance (Lexeme.read c rest).text) (Lexeme.read c rest).rest →
      motive loc s) (loc : Location) (s : List Char) : motive loc s := by
  induction loc, s using ofChars.induct with
  | case1 loc s trivia hrest => exact stop loc s _ (Prod.ext rfl hrest)
  | case2 loc s trivia loc' c rest hrest lexeme ih =>
    exact token loc s _ c rest (Prod.ext rfl hrest) ih

/-- A listing tells a text that comes after another: stretches of it that its tokens stand for, each
behind white space and comments and located by what comes before it, and the end. -/
inductive Covers : List Char → List Char → List (Option Token.Kind × Location) → Prop
  | stop {before trivia : List Char} (htrivia : IsTrivia [] trivia) :
    Covers before trivia [(none, .after (before ++ trivia))]
  | token {before trivia text rest : List Char} {kind : Token.Kind}
    {listing : List (Option Token.Kind × Location)} (htrivia : IsTrivia (text ++ rest) trivia)
    (hne : text ≠ []) (hkind : kind.IsWritten text)
    (h : Covers (before ++ trivia ++ text) rest listing) :
    Covers before (trivia ++ text ++ rest) ((some kind, .after (before ++ trivia)) :: listing)

namespace Covers

variable {before text : List Char} {listing : List (Option Token.Kind × Location)}

/-- Only the last entry is the end. -/
theorem exists_map_fst_eq (h : Covers before text listing) :
    ∃ kinds : List Token.Kind, listing.map Prod.fst = kinds.map some ++ [none] := by
  induction h with
  | stop _ => exact ⟨[], rfl⟩
  | @token _ _ _ _ kind _ _ _ _ _ ih =>
    obtain ⟨kinds, hkinds⟩ := ih
    exact ⟨kind :: kinds, by rw [List.map_cons, hkinds, List.map_cons, List.cons_append]⟩

theorem exists_isWritten (h : Covers before text listing) {kind : Token.Kind}
    (hkind : some kind ∈ listing.map Prod.fst) : ∃ s, kind.IsWritten s := by
  induction h with
  | stop _ => simp at hkind
  | @token _ _ text _ _ _ _ _ hwritten _ ih =>
    rw [List.map_cons, List.mem_cons] at hkind
    rcases hkind with heq | hmem
    · cases heq
      exact ⟨text, hwritten⟩
    · exact ih hmem

theorem after_le (h : Covers before text listing) :
    ∀ entry ∈ listing, Location.after before ≤ entry.2 := by
  induction h with
  | stop _ =>
    intro entry hentry
    rw [List.mem_singleton.mp hentry, ← Location.advance_after]
    exact Location.le_advance _ _
  | @token before trivia text _ _ _ _ _ _ _ ih =>
    have hbegin : Location.after before ≤ .after (before ++ trivia) := by
      rw [← Location.advance_after]
      exact Location.le_advance _ _
    have hend : Location.after (before ++ trivia) ≤ .after (before ++ trivia ++ text) := by
      rw [← Location.advance_after (before ++ trivia)]
      exact Location.le_advance _ _
    rw [List.forall_mem_cons]
    exact ⟨hbegin, fun entry hentry => hbegin.trans (hend.trans (ih entry hentry))⟩

theorem pairwise_lt (h : Covers before text listing) :
    (listing.map Prod.snd).Pairwise (· < ·) := by
  induction h with
  | stop _ => exact List.pairwise_singleton _ _
  | @token before trivia text _ _ _ _ hne _ h ih =>
    have hend : Location.after (before ++ trivia) < .after (before ++ trivia ++ text) := by
      rw [← Location.advance_after (before ++ trivia)]
      exact Location.lt_advance _ hne
    rw [List.map_cons, List.pairwise_cons, List.forall_mem_map]
    exact ⟨fun entry hentry => hend.trans_le (h.after_le entry hentry), ih⟩

end Covers

theorem covers_ofChars (before s : List Char) :
    Covers before s (ofChars (.after before) s).listing := by
  generalize hloc : Location.after before = loc
  induction loc, s using chars_induction generalizing before with
  | stop loc s trivia hsplit =>
    have htrivia := isTrivia_splitTrivia s
    have happend := splitTrivia_append s
    rw [hsplit] at htrivia happend
    rw [ofChars_of_nil hsplit, ← hloc, Location.advance_after, ← happend, List.append_nil]
    exact .stop htrivia
  | token loc s trivia c rest hsplit ih =>
    have htrivia := isTrivia_splitTrivia s
    have happend := splitTrivia_append s
    rw [hsplit] at htrivia happend
    have hread := Lexeme.text_append_rest c rest
    have hkind := Lexeme.isWritten_read (isSpace_of_splitTrivia hsplit) rest
    have htail := ih (before ++ trivia ++ (Lexeme.read c rest).text) (by
      rw [← hloc, Location.advance_after, Location.advance_after])
    rw [ofChars_of_cons hsplit, ← happend, ← hread, ← List.append_assoc]
    rw [← hread] at htrivia
    have hcovers := Covers.token htrivia (Lexeme.text_ne_nil c rest) hkind htail
    rwa [← Location.advance_after, hloc] at hcovers

/-- The locations of the tokens, and after them that of the end. -/
def locations (scan : Scan) : List Location :=
  scan.tokens.map Token.location ++ [scan.stop]

theorem map_snd_listing (scan : Scan) : scan.listing.map Prod.snd = scan.locations := by
  rw [listing, List.map_append, List.map_map]
  rfl

theorem exists_isWritten_of_mem_ofText {text : String} {token : Token}
    (h : token ∈ (ofText text).tokens) : ∃ s, token.kind.IsWritten s := by
  refine (covers_ofChars [] text.toList).exists_isWritten ?_
  simp only [listing, List.map_append, List.map_map, List.mem_append, List.mem_map]
  exact .inl ⟨token, h, rfl⟩

theorem pairwise_lt_locations_ofText (text : String) :
    (ofText text).locations.Pairwise (· < ·) := by
  rw [← map_snd_listing]
  exact (covers_ofChars [] text.toList).pairwise_lt

/-- A scan covers its text and lists its end last and only there. So the locations of the tokens and
of the end, which are counted on the text before them, grow strictly. -/
theorem covers_listing_ofText (text : String) :
    Covers [] text.toList (ofText text).listing ∧
      (∃ kinds : List Token.Kind,
        (ofText text).listing.map Prod.fst = kinds.map some ++ [none]) ∧
      ((ofText text).listing.map Prod.snd).Pairwise (· < ·) := by
  have hcovers : Covers [] text.toList (ofText text).listing := covers_ofChars [] text.toList
  exact ⟨hcovers, hcovers.exists_map_fst_eq, hcovers.pairwise_lt⟩

end Scan

end Typikon
