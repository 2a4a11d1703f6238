import Typikon.Proofs.Text.Writing
import Typikon.Template.Scan

/-!
Rendering tokens as text. Tokens that are rendered and joined by single spaces are scanned as the
same tokens.
-/

namespace Typikon

def IsName (name : String) : Prop :=
  name.toList ≠ [] ∧ name.toList.all isWordChar = true

/-- A name that is a word by itself: it does not begin like an integer and is none. -/
structure IsBareWord (word : String) : Prop where
  isName : IsName word
  head_ne : word.toList.head? ≠ some '-'
  int64?_eq_none : Text.Decimal.int64? word.toList = none

instance (name : String) : Decidable (IsName name) :=
  inferInstanceAs (Decidable (_ ∧ _))

instance (word : String) : Decidable (IsBareWord word) :=
  decidable_of_iff
    (IsName word ∧ word.toList.head? ≠ some '-' ∧ Text.Decimal.int64? word.toList = none)
    ⟨fun h => ⟨h.1, h.2.1, h.2.2⟩, fun h => ⟨h.1, h.2, h.3⟩⟩

namespace Token.Kind

def render : Kind → List Char
  | .string s => '"' :: (Text.Quoted.escape s.toList ++ ['"'])
  | .integer n => (toString n).toList
  | .word text => text.toList
  | .directive name => '@' :: name.toList
  | .equals => ['=']
  | .openBrace => ['\x7b']
  | .closeBrace => ['\x7d']
  | .openParen => ['(']
  | .closeParen => [')']
  | .error _ => []

/-- The tokens that have a text of their own. -/
def IsRenderable : Kind → Prop
  | .integer n => Text.Decimal.IsInt64 n
  | .word text => IsBareWord text
  | .directive name => IsName name
  | .error _ => False
  | _ => True

instance : (kind : Kind) → Decidable kind.IsRenderable
  | .integer n => inferInstanceAs (Decidable (Text.Decimal.IsInt64 n))
  | .word text => inferInstanceAs (Decidable (IsBareWord text))
  | .directive name => inferInstanceAs (Decidable (IsName name))
  | .error _ => inferInstanceAs (Decidable False)
  | .string _ | .equals | .openBrace | .closeBrace | .openParen | .closeParen =>
    inferInstanceAs (Decidable True)

/-- Tokens with single spaces between them. -/
def joined (kinds : List Kind) : List Char :=
  [' '].intercalate (kinds.map render)

theorem joined_nil : joined [] = [] := rfl

theorem joined_singleton (kind : Kind) : joined [kind] = kind.render := by
  simp [joined, List.intercalate]

theorem joined_cons_cons (kind kind' : Kind) (kinds : List Kind) :
    joined (kind :: kind' :: kinds) = kind.render ++ ' ' :: joined (kind' :: kinds) := by
  simp [joined, List.intercalate]

end Token.Kind

def StartsWithSpace (rest : List Char) : Prop :=
  rest = [] ∨ ∃ s, rest = ' ' :: s

theorem isSpace_of_isWordChar {c : Char} (h : isWordChar c = true) : isSpace c = false := by
  unfold isSpace
  by_cases hspace : c = ' ' ∨ c = '\t' ∨ c = '\r' ∨ c = '\n'
  · rcases hspace with rfl | rfl | rfl | rfl <;> cases h
  · simp_all

theorem isWordChar_of_isDigit {c : Char} (h : c.isDigit = true) : isWordChar c = true := by
  have halnum : c.isAlphanum = true := by simp [Char.isAlphanum, h]
  simp [isWordChar, Text.isAlphanumeric_of_isAlphanum halnum]

theorem takeWhile_isWordChar {s rest : List Char} (hs : ∀ c ∈ s, isWordChar c = true)
    (hrest : StartsWithSpace rest) : (s ++ rest).takeWhile isWordChar = s := by
  rw [List.takeWhile_append_of_pos hs]
  rcases hrest with rfl | ⟨t, rfl⟩
  · simp
  · simp [show isWordChar ' ' = false from rfl]

theorem dropWhile_isWordChar {s rest : List Char} (hs : ∀ c ∈ s, isWordChar c = true)
    (hrest : StartsWithSpace rest) : (s ++ rest).dropWhile isWordChar = rest := by
  rw [List.dropWhile_append_of_pos hs]
  rcases hrest with rfl | ⟨t, rfl⟩
  · rfl
  · simp [show isWordChar ' ' = false from rfl]

namespace Lexeme

theorem read_of_isWordChar {c : Char} {s rest : List Char}
    (hc : isWordChar c = true) (hs : ∀ c ∈ s, isWordChar c = true) (hrest : StartsWithSpace rest) :
    read c (s ++ rest) = ⟨wordKind (c :: s), c :: s, rest⟩ := by
  unfold read
  split
  all_goals try cases hc
  rw [if_pos hc, takeWhile_isWordChar hs hrest, dropWhile_isWordChar hs hrest]

theorem read_directive {c : Char} {s rest : List Char} (hs : ∀ d ∈ c :: s, isWordChar d = true)
    (hrest : StartsWithSpace rest) :
    read '@' (c :: s ++ rest) = ⟨.directive (String.ofList (c :: s)), '@' :: c :: s, rest⟩ := by
  change ofAt (c :: s ++ rest) = _
  unfold ofAt
  rw [takeWhile_isWordChar hs hrest, dropWhile_isWordChar hs hrest]

theorem read_quoted (s rest : List Char) :
    read '"' (Text.Quoted.escape s ++ '"' :: rest) =
      ⟨.string (String.ofList s), '"' :: (Text.Quoted.escape s ++ ['"']), rest⟩ := by
  change ofQuote (Text.Quoted.escape s ++ '"' :: rest) = _
  unfold ofQuote
  rw [Text.Quoted.closing?_escape]
  simp only [Text.Quoted.unescape_escape]

theorem wordKind_toString {n : Int} (h : Text.Decimal.IsInt64 n) :
    wordKind (toString n).toList = .integer n := by
  rw [wordKind, Text.Decimal.int64?_toString h]

theorem wordKind_of_isBareWord {word : String} (h : IsBareWord word) :
    wordKind word.toList = .word word := by
  rw [wordKind, h.int64?_eq_none]
  simp only [h.head_ne, ↓reduceIte, String.ofList_toList]

end Lexeme

theorem isWordChar_of_mem_toString {n : Int} {c : Char} (h : c ∈ (toString n).toList) :
    isWordChar c = true := by
  obtain ⟨k, ⟨-, hdigits⟩ | ⟨-, hdigits⟩⟩ := Text.Decimal.toList_toString_cases n
  · rw [hdigits] at h
    exact isWordChar_of_isDigit (Text.Decimal.isDigit_of_mem_toDigits h)
  · rw [hdigits] at h
    rcases List.mem_cons.mp h with rfl | h
    · rfl
    · exact isWordChar_of_isDigit (Text.Decimal.isDigit_of_mem_toDigits h)

theorem toString_toList_ne_nil (n : Int) : (toString n).toList ≠ [] := by
  obtain ⟨k, ⟨-, hdigits⟩ | ⟨-, hdigits⟩⟩ := Text.Decimal.toList_toString_cases n
  · rw [hdigits]
    exact Nat.toDigits_ne_nil
  · rw [hdigits]
    exact List.cons_ne_nil _ _

def BeginsLexeme (c : Char) : Prop :=
  isSpace c = false ∧ c ≠ '/'

theorem splitTrivia_of_isSpace {c : Char} (h : isSpace c = true) (s : List Char) :
    splitTrivia (c :: s) = (c :: (splitTrivia s).1, (splitTrivia s).2) := by
  rw [splitTrivia, if_pos h]
  rintro t rfl
  cases h

theorem splitTrivia_of_not_comment {c : Char} {s : List Char} (hspace : isSpace c = false)
    (hcomment : ∀ t, c = '/' → s = '/' :: t → False) : splitTrivia (c :: s) = ([], c :: s) := by
  rw [splitTrivia.eq_3 _ _ hcomment, hspace]
  rfl

theorem splitTrivia_of_beginsLexeme {c : Char} (h : BeginsLexeme c) (s : List Char) :
    splitTrivia (c :: s) = ([], c :: s) :=
  splitTrivia_of_not_comment h.1 fun _ hc _ => h.2 hc

namespace Token.Kind

/-- What the text of a token is read as before a space or the end. -/
structure ReadsAs (kind : Kind) (c : Char) (s : List Char) : Prop where
  render_eq : kind.render = c :: s
  begins : BeginsLexeme c
  read_eq : ∀ rest, StartsWithSpace rest → Lexeme.read c (s ++ rest) = ⟨kind, c :: s, rest⟩

theorem readsAs_of_isWordChar {kind : Kind} {text : List Char} (hrender : kind.render = text)
    (hne : text ≠ []) (hchars : ∀ c ∈ text, isWordChar c = true)
    (hkind : Lexeme.wordKind text = kind) : ∃ c s, kind.ReadsAs c s := by
  cases text with
  | nil => exact absurd rfl hne
  | cons c s =>
    have hc : isWordChar c = true := hchars c List.mem_cons_self
    refine ⟨c, s, hrender, ⟨isSpace_of_isWordChar hc, ?_⟩, ?_⟩
    · rintro rfl
      cases hc
    · intro rest hrest
      rw [Lexeme.read_of_isWordChar hc (fun d hd => hchars d (List.mem_cons_of_mem c hd)) hrest,
        hkind]

theorem IsRenderable.exists_readsAs {kind : Kind} (h : kind.IsRenderable) :
    ∃ c s, kind.ReadsAs c s := by
  cases kind with
  | string s =>
    refine ⟨'"', Text.Quoted.escape s.toList ++ ['"'], rfl, ⟨rfl, by decide⟩, ?_⟩
    intro rest _
    rw [List.append_assoc, List.singleton_append, Lexeme.read_quoted, String.ofList_toList]
  | integer n =>
    exact readsAs_of_isWordChar rfl (toString_toList_ne_nil n)
      (fun _ => isWordChar_of_mem_toString) (Lexeme.wordKind_toString h)
  | word text =>
    have h : IsBareWord text := h
    exact readsAs_of_isWordChar rfl h.isName.1 (List.all_eq_true.mp h.isName.2)
      (Lexeme.wordKind_of_isBareWord h)
  | directive name =>
    obtain ⟨hne, hall⟩ : IsName name := h
    have hchars := List.all_eq_true.mp hall
    refine ⟨'@', name.toList, rfl, ⟨rfl, by decide⟩, ?_⟩
    intro rest hrest
    have hname : String.ofList name.toList = name := String.ofList_toList
    cases htext : name.toList with
    | nil => exact absurd htext hne
    | cons c s =>
      rw [htext] at hchars hname
      rw [Lexeme.read_directive hchars hrest, hname]
  | equals => exact ⟨'=', [], rfl, ⟨rfl, by decide⟩, fun rest _ => rfl⟩
  | openBrace => exact ⟨'\x7b', [], rfl, ⟨rfl, by decide⟩, fun rest _ => rfl⟩
  | closeBrace => exact ⟨'\x7d', [], rfl, ⟨rfl, by decide⟩, fun rest _ => rfl⟩
  | openParen => exact ⟨'(', [], rfl, ⟨rfl, by decide⟩, fun rest _ => rfl⟩
  | closeParen => exact ⟨')', [], rfl, ⟨rfl, by decide⟩, fun rest _ => rfl⟩
  | error cause => exact h.elim

end Token.Kind

namespace Scan

theorem ofChars_of_nil {loc : Location} {s trivia : List Char} (h : splitTrivia s = (trivia, [])) :
    ofChars loc s = ⟨[], loc.advance trivia⟩ := by
  rw [ofChars]
  simp only
  split
  · rw [h]
  · next c rest heq =>
    rw [h] at heq
    cases heq

theorem ofChars_of_cons {loc : Location} {s trivia rest : List Char} {c : Char}
    (h : splitTrivia s = (trivia, c :: rest)) :
    ofChars loc s =
      { ofChars ((loc.advance trivia).advance (Lexeme.read c rest).text)
          (Lexeme.read c rest).rest with
        tokens := ⟨(Lexeme.read c rest).kind, loc.advance trivia⟩ ::
          (ofChars ((loc.advance trivia).advance (Lexeme.read c rest).text)
            (Lexeme.read c rest).rest).tokens } := by
  rw [ofChars]
  simp only
  split
  · next heq =>
    rw [h] at heq
    cases heq
  · next c' rest' heq =>
    rw [h] at heq
    cases heq
    rw [h]

/-- Trivia at the front of a text only move the scan of it on. -/
theorem ofChars_append_of_trivia {u t : List Char}
    (h : splitTrivia (u ++ t) = (u ++ (splitTrivia t).1, (splitTrivia t).2)) (loc : Location) :
    ofChars loc (u ++ t) = ofChars (loc.advance u) t := by
  cases htrivia : splitTrivia t with
  | mk trivia rest =>
    rw [htrivia] at h
    cases rest with
    | nil => rw [ofChars_of_nil htrivia, ofChars_of_nil h, Location.advance_append]
    | cons c rest => rw [ofChars_of_cons htrivia, ofChars_of_cons h, Location.advance_append]

theorem ofChars_of_isSpace {c : Char} (h : isSpace c = true) (loc : Location) (s : List Char) :
    ofChars loc (c :: s) = ofChars (loc.next c) s :=
  ofChars_append_of_trivia (u := [c]) (splitTrivia_of_isSpace h s) loc

theorem ofChars_nil (loc : Location) : ofChars loc [] = ⟨[], loc⟩ :=
  ofChars_of_nil (by rw [splitTrivia])

theorem ofChars_render {kind : Token.Kind} (h : kind.IsRenderable) (loc : Location)
    {rest : List Char} (hrest : StartsWithSpace rest) :
    (ofChars loc (kind.render ++ rest)).tokens =
      ⟨kind, loc⟩ :: (ofChars (loc.advance kind.render) rest).tokens := by
  obtain ⟨c, s, hrender, hbegins, hread⟩ := h.exists_readsAs
  have htrivia := splitTrivia_of_beginsLexeme hbegins (s ++ rest)
  rw [hrender, List.cons_append, ofChars_of_cons htrivia, hread rest hrest]
  rfl

theorem exists_map_kind_ofChars_render {kind : Token.Kind}
    (h : kind.IsRenderable ∨ kind.render = []) (loc : Location) {rest : List Char}
    (hrest : StartsWithSpace rest) :
    ∃ loc', ∀ kinds : List Token.Kind,
      (ofChars loc' rest).tokens.map Token.kind = kinds.filter (fun kind => kind.IsRenderable) →
        (ofChars loc (kind.render ++ rest)).tokens.map Token.kind =
          (kind :: kinds).filter fun kind => kind.IsRenderable := by
  by_cases hrender : kind.IsRenderable
  · refine ⟨loc.advance kind.render, fun kinds hkinds => ?_⟩
    rw [ofChars_render hrender loc hrest, List.map_cons, hkinds,
      List.filter_cons_of_pos (by rwa [decide_eq_true_iff])]
  · refine ⟨loc, fun kinds hkinds => ?_⟩
    rw [h.resolve_left hrender, List.nil_append, hkinds,
      List.filter_cons_of_neg (by rwa [decide_eq_true_iff])]

/-- A token that has no text leaves nothing but its space, so the tokens that are scanned are those
that have one. -/
theorem map_kind_ofChars_joined_eq_filter (loc : Location) {kinds : List Token.Kind}
    (h : ∀ kind ∈ kinds, kind.IsRenderable ∨ kind.render = []) :
    (ofChars loc (Token.Kind.joined kinds)).tokens.map Token.kind =
      kinds.filter fun kind => kind.IsRenderable := by
  induction kinds generalizing loc with
  | nil =>
    rw [Token.Kind.joined_nil, ofChars_nil]
    rfl
  | cons kind kinds ih =>
    have hkind := h kind List.mem_cons_self
    have hkinds := fun other hmem => h other (List.mem_cons_of_mem kind hmem)
    cases kinds with
    | nil =>
      obtain ⟨loc', hnext⟩ := exists_map_kind_ofChars_render hkind loc (.inl rfl)
      rw [Token.Kind.joined_singleton, ← List.append_nil kind.render]
      exact hnext [] (ih loc' hkinds)
    | cons kind' kinds =>
      obtain ⟨loc', hnext⟩ := exists_map_kind_ofChars_render hkind loc (.inr ⟨_, rfl⟩)
      rw [Token.Kind.joined_cons_cons]
      refine hnext _ ?_
      rw [ofChars_of_isSpace rfl, ih _ hkinds]

theorem map_kind_ofChars_joined (loc : Location) {kinds : List Token.Kind}
    (h : ∀ kind ∈ kinds, kind.IsRenderable) :
    (ofChars loc (Token.Kind.joined kinds)).tokens.map Token.kind = kinds := by
  rw [map_kind_ofChars_joined_eq_filter loc fun kind hmem => .inl (h kind hmem),
    List.filter_eq_self]
  exact fun kind hmem => decide_eq_true (h kind hmem)

end Scan

end Typikon
