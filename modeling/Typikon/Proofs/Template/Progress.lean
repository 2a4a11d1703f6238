import Typikon.Template.Basic

/-!
What the productions of the grammar pass over. None of a body takes a token at which the body could
go on, and none outside a body takes an opening brace.
-/

namespace Typikon

/-- Tokens that all have a property stand before a rest. -/
def PassesOver (p : Token → Prop) (tokens rest : List Token) : Prop :=
  ∃ taken, tokens = taken ++ rest ∧ ∀ token ∈ taken, p token

namespace PassesOver

variable {p q : Token → Prop} {token : Token} {tokens others rest : List Token}

theorem refl (p : Token → Prop) (tokens : List Token) : PassesOver p tokens tokens := by
  refine ⟨[], rfl, ?_⟩
  intro token hmem
  cases hmem

theorem cons (htoken : p token) (h : PassesOver p tokens rest) :
    PassesOver p (token :: tokens) rest := by
  obtain ⟨taken, rfl, htaken⟩ := h
  refine ⟨token :: taken, rfl, ?_⟩
  intro other hmem
  rcases List.mem_cons.mp hmem with rfl | hmem
  · exact htoken
  · exact htaken other hmem

theorem trans (h : PassesOver p tokens others) (h' : PassesOver p others rest) :
    PassesOver p tokens rest := by
  obtain ⟨taken, rfl, htaken⟩ := h
  obtain ⟨taken', rfl, htaken'⟩ := h'
  refine ⟨taken ++ taken', (List.append_assoc _ _ _).symm, ?_⟩
  intro token hmem
  rcases List.mem_append.mp hmem with hmem | hmem
  · exact htaken token hmem
  · exact htaken' token hmem

theorem suffix (h : PassesOver p tokens rest) : rest <:+ tokens := by
  obtain ⟨taken, rfl, -⟩ := h
  exact List.suffix_append taken rest

theorem mono (hpq : ∀ token, p token → q token) (h : PassesOver p tokens rest) :
    PassesOver q tokens rest := by
  obtain ⟨taken, happend, htaken⟩ := h
  exact ⟨taken, happend, fun token hmem => hpq token (htaken token hmem)⟩

end PassesOver

namespace Token

/-- The tokens that can stand in a leaf after its keyword. -/
def IsOfLeaf (token : Token) : Prop :=
  (∃ s, token.kind = .string s) ∨ (∃ n, token.kind = .integer n) ∨
    ∃ name, token.kind = .directive name

/-- The tokens that a body passes over when it is not at a paragraph or its end. -/
def IsInside (token : Token) : Prop :=
  Reading.isBodyToken token = false

theorem IsOfLeaf.isInside {token : Token} (h : token.IsOfLeaf) : token.IsInside := by
  unfold IsInside Reading.isBodyToken
  rcases h with ⟨s, h⟩ | ⟨n, h⟩ | ⟨name, h⟩ <;> rw [h] <;> rfl

/-- The tokens that begin no body. -/
def IsOutside (token : Token) : Prop :=
  token.kind ≠ .openBrace

theorem IsOfLeaf.isOutside {token : Token} (h : token.IsOfLeaf) : token.IsOutside := by
  intro hopen
  rcases h with ⟨s, h⟩ | ⟨n, h⟩ | ⟨name, h⟩ <;> rw [h] at hopen <;> cases hopen

theorem isOutside_word {token : Token} {word : String} (h : token.kind = .word word) :
    token.IsOutside := by
  intro hopen
  rw [h] at hopen
  cases hopen

theorem isOutside_directive {token : Token} {name : String} (h : token.kind = .directive name) :
    token.IsOutside := by
  intro hopen
  rw [h] at hopen
  cases hopen

theorem isInside_word_iff {token : Token} {word : String} (h : token.kind = .word word) :
    token.IsInside ↔ isParagraphStyle word = false := by
  simp [IsInside, Reading.isBodyToken, Reading.paragraphStyle?, h]

end Token

theorem isParagraphStyle_iff {word : String} :
    isParagraphStyle word = true ↔ ['p', '.'] <+: word.toList ∧ 2 < word.toList.length := by
  unfold isParagraphStyle
  split
  · next c rest hword =>
    rw [hword]
    exact iff_of_true rfl ⟨⟨c :: rest, rfl⟩, by simp⟩
  · next hother =>
    refine iff_of_false Bool.false_ne_true ?_
    rintro ⟨⟨rest, hrest⟩, hlength⟩
    cases rest with
    | nil => simp [← hrest] at hlength
    | cons c rest => exact hother c rest hrest.symm

theorem isSpanStyle_iff {word : String} :
    isSpanStyle word = true ↔
      ['s', 'p', 'a', 'n', '.'] <+: word.toList ∧ 5 < word.toList.length := by
  unfold isSpanStyle
  split
  · next c rest hword =>
    rw [hword]
    exact iff_of_true rfl ⟨⟨c :: rest, rfl⟩, by simp⟩
  · next hother =>
    refine iff_of_false Bool.false_ne_true ?_
    rintro ⟨⟨rest, hrest⟩, hlength⟩
    cases rest with
    | nil => simp [← hrest] at hlength
    | cons c rest => exact hother c rest hrest.symm

theorem isParagraphStyle_of_isSpanStyle {word : String} (h : isSpanStyle word = true) :
    isParagraphStyle word = false := by
  unfold isSpanStyle at h
  unfold isParagraphStyle
  split at h
  · next hword =>
    rw [hword]
    rfl
  · cases h

theorem word_of_leafKeyword {word : String} {keyword : LeafKeyword}
    (h : LeafKeyword.ofWord? word = some keyword) : keyword.word = word := by
  have hfound := List.find?_some h
  simpa using hfound

theorem isParagraphStyle_of_leafKeyword {word : String} {keyword : LeafKeyword}
    (h : LeafKeyword.ofWord? word = some keyword) : isParagraphStyle word = false := by
  rw [← word_of_leafKeyword h]
  cases keyword <;> decide

theorem leafKeyword_of_isParagraphStyle {word : String} (h : isParagraphStyle word = true) :
    LeafKeyword.ofWord? word = none := by
  cases hword : LeafKeyword.ofWord? word with
  | none => rfl
  | some keyword =>
    rw [isParagraphStyle_of_leafKeyword hword] at h
    cases h

theorem leafKeyword_of_isSpanStyle {word : String} (h : isSpanStyle word = true) :
    LeafKeyword.ofWord? word = none := by
  cases hword : LeafKeyword.ofWord? word with
  | none => rfl
  | some keyword =>
    have hnot : isSpanStyle keyword.word = false := by
      cases keyword <;> decide
    rw [word_of_leafKeyword hword, h] at hnot
    cases hnot

namespace Reading

theorem paragraphStyle?_eq_some_iff {kind : Token.Kind} {style : String} :
    paragraphStyle? kind = some style ↔ kind = .word style ∧ isParagraphStyle style = true := by
  unfold paragraphStyle?
  split
  · next word =>
    rw [Option.ite_none_right_eq_some, Option.some.injEq, Token.Kind.word.injEq]
    constructor
    · rintro ⟨hword, rfl⟩
      exact ⟨rfl, hword⟩
    · rintro ⟨rfl, hword⟩
      exact ⟨hword, rfl⟩
  · next hother =>
    refine iff_of_false (Option.some_ne_none style).symm ?_
    rintro ⟨rfl, -⟩
    exact hother style rfl

variable (reports : Reports) (tokens : List Token)

theorem passesOver_overrides :
    PassesOver Token.IsOfLeaf tokens (overrides reports tokens).rest := by
  fun_induction overrides reports tokens with
  | case1 reports => exact .refl _ _
  | case2 reports token rest name hkind hnone => exact .refl _ _
  | case3 reports token name hkind kind hsome value loc rest tail ih =>
    apply PassesOver.cons (.inr (.inr ⟨name, hkind⟩))
    exact .cons (.inr (.inl ⟨value, rfl⟩)) ih
  | case4 reports token name hkind kind hsome rest hint ih =>
    exact .cons (.inr (.inr ⟨name, hkind⟩)) ih
  | case5 reports token rest hkind => exact .refl _ _

theorem passesOver_leaf (keyword : LeafKeyword) (loc : Location) :
    PassesOver Token.IsOfLeaf tokens (leaf keyword loc reports tokens).rest := by
  unfold leaf
  split
  · next s loc' rest =>
    have hstring : Token.IsOfLeaf ⟨.string s, loc'⟩ := .inl ⟨s, rfl⟩
    cases keyword with
    | nid | sid | media => exact .cons hstring (.refl _ _)
    | rid => exact .cons hstring (passesOver_overrides reports rest)
  · exact .refl _ _

theorem passesOver_keyword_leaf {token : Token} {word : String} {keyword : LeafKeyword}
    (hkind : token.kind = .word word) (hword : LeafKeyword.ofWord? word = some keyword) :
    PassesOver Token.IsInside (token :: tokens)
      (leaf keyword token.location reports tokens).rest := by
  apply PassesOver.cons
  · exact (Token.isInside_word_iff hkind).mpr (isParagraphStyle_of_leafKeyword hword)
  · exact (passesOver_leaf reports tokens keyword token.location).mono
      fun _ => Token.IsOfLeaf.isInside

theorem passesOver_leaves : PassesOver Token.IsInside tokens (leaves reports tokens).rest := by
  fun_induction leaves reports tokens with
  | case1 | case3 | case4 => exact .refl _ _
  | case2 reports token rest word hkind keyword hword leaf hle tail ih =>
    exact (passesOver_keyword_leaf reports rest hkind hword).trans ih

theorem beginsContent_cases (kind : Token.Kind) :
    (∃ word keyword, kind = .word word ∧ LeafKeyword.ofWord? word = some keyword) ∨
      (∃ word, kind = .word word ∧ LeafKeyword.ofWord? word = none ∧ isSpanStyle word = true) ∨
      beginsContent kind = false := by
  by_cases hbegins : beginsContent kind = false
  · exact .inr (.inr hbegins)
  · cases kind with
    | word word =>
      cases hword : LeafKeyword.ofWord? word with
      | some keyword => exact .inl ⟨word, keyword, rfl, hword⟩
      | none =>
        simp only [beginsContent, hword, Option.isSome_none, Bool.false_or,
          Bool.not_eq_false] at hbegins
        exact .inr (.inl ⟨word, rfl, hword, hbegins⟩)
    | _ => exact absurd rfl hbegins

/-- Contents are a leaf or a span and then more contents, up to where none begins. A span is its
leaves and, if these end at a parenthesis, contents from there on. -/
theorem contents_span_induction {C : Reports → List Token → Prop}
    {S : String → Location → Reports → List Token → Prop} (nil : ∀ reports, C reports [])
    (ofLeaf : ∀ reports loc rest word keyword, LeafKeyword.ofWord? word = some keyword →
      C (leaf keyword loc reports rest).reports (leaf keyword loc reports rest).rest →
      C reports (⟨.word word, loc⟩ :: rest))
    (ofSpan : ∀ reports loc rest style, LeafKeyword.ofWord? style = none →
      isSpanStyle style = true → S style loc reports rest →
      C (span style loc reports rest).reports (span style loc reports rest).rest →
      C reports (⟨.word style, loc⟩ :: rest))
    (other : ∀ reports kind loc rest, beginsContent kind = false → C reports (⟨kind, loc⟩ :: rest))
    (nested : ∀ style loc reports tokens opened rest,
      (leaves reports tokens).rest = ⟨.openParen, opened⟩ :: rest →
      C (leaves reports tokens).reports rest → S style loc reports tokens)
    (plain : ∀ style loc reports tokens,
      (∀ opened rest, (leaves reports tokens).rest ≠ ⟨.openParen, opened⟩ :: rest) →
      S style loc reports tokens) :
    (∀ reports tokens, C reports tokens) ∧
      ∀ style loc reports tokens, S style loc reports tokens := by
  suffices h : ∀ n, ∀ tokens : List Token, tokens.length = n →
      (∀ reports, C reports tokens) ∧ ∀ style loc reports, S style loc reports tokens from
    ⟨fun reports tokens => (h _ tokens rfl).1 reports,
      fun style loc reports tokens => (h _ tokens rfl).2 style loc reports⟩
  -- On the number of tokens, since what a leaf or a span leaves is not the tail of what it has
  -- read.
  intro n
  induction n using Nat.strongRecOn with
  | ind n ih =>
    rintro tokens rfl
    constructor
    · intro reports
      match tokens with
      | [] => exact nil reports
      | ⟨kind, loc⟩ :: rest =>
        have hread {shorter : List Token} (hle : shorter.length ≤ rest.length) :=
          ih shorter.length (Nat.lt_succ_of_le hle) shorter rfl
        rcases beginsContent_cases kind with ⟨word, keyword, rfl, hword⟩ |
          ⟨style, rfl, hleaf, hspan⟩ | hother
        · exact ofLeaf reports loc rest word keyword hword
            ((hread (length_rest_leaf_le keyword loc reports rest)).1 _)
        · exact ofSpan reports loc rest style hleaf hspan
            ((hread (Nat.le_refl _)).2 style loc reports)
            ((hread (length_rest_span_le style loc reports rest)).1 _)
        · exact other reports kind loc rest hother
    · intro style loc reports
      by_cases hopen : ∃ opened rest, (leaves reports tokens).rest = ⟨.openParen, opened⟩ :: rest
      · obtain ⟨opened, rest, hopen⟩ := hopen
        have hlt : rest.length < tokens.length := by
          have hle := length_rest_leaves_le reports tokens
          rwa [hopen] at hle
        exact nested style loc reports tokens opened rest hopen ((ih _ hlt rest rfl).1 _)
      · exact plain style loc reports tokens fun opened rest h => hopen ⟨opened, rest, h⟩

/-- A span takes its parentheses, but not the token that stands in place of the closing one. -/
theorem passesOver_contents_and_span :
    (∀ reports tokens, PassesOver Token.IsInside tokens (contents reports tokens).rest) ∧
      ∀ style loc reports tokens,
        PassesOver Token.IsInside tokens (span style loc reports tokens).rest := by
  apply contents_span_induction
  case nil =>
    intro reports
    rw [contents_nil]
    exact .refl _ _
  case ofLeaf =>
    intro reports loc rest word keyword hword ih
    rw [contents_leaf reports loc rest hword]
    exact (passesOver_keyword_leaf reports rest rfl hword).trans ih
  case ofSpan =>
    intro reports loc rest style hleaf hspan hread ih
    rw [contents_span reports loc rest hleaf hspan]
    apply PassesOver.cons
    · exact (Token.isInside_word_iff rfl).mpr (isParagraphStyle_of_isSpanStyle hspan)
    · exact hread.trans ih
  case other =>
    intro reports kind loc rest hother
    rw [contents_of_not_beginsContent reports rest hother]
    exact .refl _ _
  case nested =>
    intro style loc reports tokens opened rest hopen ih
    have hleaves := passesOver_leaves reports tokens
    rw [hopen] at hleaves
    rw [span_of_openParen style loc hopen]
    have hnested : PassesOver Token.IsInside (⟨.openParen, opened⟩ :: rest)
        (contents (leaves reports tokens).reports rest).rest := .cons rfl ih
    dsimp only
    split
    · next closed rest' hclose =>
      rw [hclose] at hnested
      exact (hleaves.trans hnested).trans (.cons rfl (.refl _ _))
    · exact hleaves.trans hnested
  case plain =>
    intro style loc reports tokens hne
    rw [span_of_not_openParen style loc hne]
    exact passesOver_leaves reports tokens

theorem passesOver_contents (reports : Reports) (tokens : List Token) :
    PassesOver Token.IsInside tokens (contents reports tokens).rest :=
  passesOver_contents_and_span.1 reports tokens

theorem passesOver_paragraph (style : String) (loc : Location) (reports : Reports)
    (tokens : List Token) :
    PassesOver Token.IsInside tokens (paragraph style loc reports tokens).rest := by
  have hcontents := passesOver_contents reports tokens
  unfold paragraph
  dsimp only
  split
  · next loc' rest hrest =>
    rw [hrest] at hcontents
    exact hcontents.trans (.cons rfl (.refl _ _))
  · exact hcontents

theorem passesOver_references :
    PassesOver Token.IsOutside tokens (references reports tokens).rest := by
  fun_induction references reports tokens with
  | case1 | case3 | case4 | case5 => exact .refl _ _
  | case2 reports token rest word hkind keyword hword hreference leaf hle tail ih =>
    apply PassesOver.cons (Token.isOutside_word hkind)
    have hleaf := passesOver_leaf reports rest keyword token.location
    exact (hleaf.mono fun _ => Token.IsOfLeaf.isOutside).trans ih

theorem passesOver_library : PassesOver Token.IsOutside tokens (library reports tokens).rest := by
  fun_cases library reports tokens with
  | case1 loc n loc' rest =>
    apply PassesOver.cons (Token.isOutside_word rfl)
    exact .cons (Token.IsOfLeaf.isOutside (.inr (.inl ⟨n, rfl⟩))) (.refl _ _)
  | case2 loc rest hint => exact .cons (Token.isOutside_word rfl) (.refl _ _)
  | case3 => exact .refl _ _

theorem passesOver_lookup (loc : Location) :
    PassesOver Token.IsOutside tokens (lookup loc reports tokens).rest :=
  (passesOver_references reports tokens).trans (passesOver_library _ _)

theorem passesOver_slotItems :
    PassesOver Token.IsOutside tokens (slotItems reports tokens).rest := by
  fun_induction slotItems reports tokens with
  | case1 | case5 | case6 => exact .refl _ _
  | case2 reports token rest lookup hle tail hkind ih =>
    apply PassesOver.cons (Token.isOutside_directive hkind)
    exact (passesOver_lookup reports rest token.location).trans ih
  | case3 reports token rest name hkind hname hle tail ih =>
    exact .cons (Token.isOutside_directive hkind) ih
  | case4 reports token rest leaf hle tail hkind ih =>
    apply PassesOver.cons (Token.isOutside_word hkind)
    have hleaf := passesOver_leaf reports rest .nid token.location
    exact (hleaf.mono fun _ => Token.IsOfLeaf.isOutside).trans ih

theorem passesOver_positions :
    PassesOver Token.IsOutside tokens (positions reports tokens).rest := by
  fun_induction positions reports tokens with
  | case1 | case2 | case4 => exact .refl _ _
  | case3 reports token rest slot hkind hnext position hle tail ih =>
    apply PassesOver.cons (Token.isOutside_word hkind)
    exact (passesOver_slotItems reports rest).trans ih

theorem passesOver_property (name : String) (loc : Location) :
    PassesOver Token.IsOutside tokens (property name loc reports tokens).rest := by
  unfold property
  split
  · next s loc' rest =>
    exact .cons (Token.IsOfLeaf.isOutside (.inl ⟨s, rfl⟩)) (.refl _ _)
  · next n loc' rest =>
    exact .cons (Token.IsOfLeaf.isOutside (.inr (.inl ⟨n, rfl⟩))) (.refl _ _)
  · exact .refl _ _

theorem passesOver_skipToItem : PassesOver Token.IsOutside tokens (skipToItem tokens) := by
  fun_induction skipToItem tokens with
  | case1 | case2 => exact .refl _ _
  | case3 token rest hitem ih => exact .cons (fun hkind => hitem (.inl hkind)) ih

/-- Items go on to the last token. -/
theorem rest_items : (items reports tokens).rest = [] := by
  fun_induction items reports tokens with
  | case1 => rfl
  | case2 | case3 | case4 | case5 => assumption

end Reading

end Typikon
