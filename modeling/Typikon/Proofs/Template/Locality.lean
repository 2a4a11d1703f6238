import Typikon.Proofs.Template.Progress

/-!
What a paragraph is made of is decided by the tokens up to the next paragraph or the end of its
body. Each production of a body reads the same from those tokens alone as with the others behind
them, and whatever has been reported before.
-/

namespace Typikon

/-- Tokens that begin where a body can go on, or none. -/
def StopsBody (rest : List Token) : Prop :=
  ∀ token, rest.head? = some token → Reading.isBodyToken token = true

theorem StopsBody.cases {rest : List Token} (h : StopsBody rest) :
    rest = [] ∨ (∃ loc tail, rest = ⟨.closeBrace, loc⟩ :: tail) ∨
      ∃ word loc tail, isParagraphStyle word = true ∧ rest = ⟨.word word, loc⟩ :: tail := by
  cases rest with
  | nil => exact .inl rfl
  | cons token tail =>
    have htoken := h token rfl
    obtain ⟨kind, loc⟩ := token
    cases kind with
    | closeBrace => exact .inr (.inl ⟨loc, tail, rfl⟩)
    | word word =>
      refine .inr (.inr ⟨word, loc, tail, ?_, rfl⟩)
      simpa [Reading.isBodyToken, Reading.paragraphStyle?] using htoken
    | _ => cases htoken

theorem StopsBody.beginsContent {token : Token} {tail : List Token}
    (h : StopsBody (token :: tail)) : Reading.beginsContent token.kind = false := by
  rcases h.cases with h | ⟨loc, tail, h⟩ | ⟨word, loc, tail, hword, h⟩
  · cases h
  · cases h
    rfl
  · cases h
    cases hspan : isSpanStyle word with
    | false => simp [Reading.beginsContent, leafKeyword_of_isParagraphStyle hword, hspan]
    | true =>
      rw [isParagraphStyle_of_isSpanStyle hspan] at hword
      cases hword

/-- What does not begin with a token from inside a body does not with others behind it. -/
theorem StopsBody.append_ne_cons {rest tokens : List Token} {kind : Token.Kind}
    (h : StopsBody rest) (htokens : ∀ loc tail, tokens ≠ ⟨kind, loc⟩ :: tail)
    (hkind : ∀ loc, Token.IsInside ⟨kind, loc⟩) (loc : Location) (tail : List Token) :
    tokens ++ rest ≠ ⟨kind, loc⟩ :: tail := by
  intro happend
  cases tokens with
  | nil =>
    have hhead := h ⟨kind, loc⟩ (congrArg List.head? happend)
    have hinside : Reading.isBodyToken ⟨kind, loc⟩ = false := hkind loc
    rw [hinside] at hhead
    cases hhead
  | cons token tokens =>
    rw [List.cons_append, List.cons.injEq] at happend
    exact htokens loc tokens (by rw [happend.1])

namespace Reading

/-- One reading is another one with more tokens left. -/
structure ExtendsBy {α : Type} (rest : List Token) (long short : Reading α) : Prop where
  value : long.value = short.value
  rest : long.rest = short.rest ++ rest

theorem ExtendsBy.withValue {α β : Type} {rest : List Token} {long short : Reading α} (f : α → β)
    (h : ExtendsBy rest long short) :
    ExtendsBy rest { long with value := f long.value } { short with value := f short.value } :=
  ⟨congrArg f h.value, h.rest⟩

theorem overrides_of_missing {token : Token} {tokens : List Token} {name : String}
    {kind : OverrideKind} (reports : Reports) (hkind : token.kind = .directive name)
    (hsome : OverrideKind.ofWord? name = some kind)
    (hmissing : ∀ n loc tail, tokens ≠ ⟨.integer n, loc⟩ :: tail) :
    overrides reports (token :: tokens) =
      overrides (reports.expected .integer tokens) tokens := by
  rw [overrides, hkind]
  simp only [hsome]

theorem overrides_of_ne_directive {token : Token} (reports : Reports) (tokens : List Token)
    (hkind : ∀ name, token.kind ≠ .directive name) :
    overrides reports (token :: tokens) = ⟨[], reports, token :: tokens⟩ := by
  rw [overrides]
  split
  · next name h => exact absurd h (hkind name)
  · rfl

theorem leaves_leaf {token : Token} {word : String} {keyword : LeafKeyword} (reports : Reports)
    (tokens : List Token) (hkind : token.kind = .word word)
    (hword : LeafKeyword.ofWord? word = some keyword) :
    leaves reports (token :: tokens) =
      let leaf := leaf keyword token.location reports tokens
      let tail := leaves leaf.reports leaf.rest
      { tail with value := leaf.value.toList ++ tail.value } := by
  rw [leaves]
  simp only [hkind, hword]

theorem leaves_of_ne_word {token : Token} (reports : Reports) (tokens : List Token)
    (hkind : ∀ word, token.kind ≠ .word word) :
    leaves reports (token :: tokens) = ⟨[], reports, token :: tokens⟩ := by
  rw [leaves]
  split
  · next word h => exact absurd h (hkind word)
  · rfl

theorem leaf_of_missing {tokens : List Token} (keyword : LeafKeyword) (loc : Location)
    (reports : Reports) (hmissing : ∀ s loc tail, tokens ≠ ⟨.string s, loc⟩ :: tail) :
    leaf keyword loc reports tokens =
      ⟨none, reports.expected (.string keyword.word) tokens, tokens⟩ := by
  unfold leaf
  split
  · next s loc' tail => exact absurd rfl (hmissing s loc' tail)
  · rfl

/-- What is left after the end of nested content, if it has one. -/
def afterNested : List Token → List Token
  | ⟨.closeParen, _⟩ :: rest => rest
  | tokens => tokens

theorem afterNested_of_ne {tokens : List Token}
    (h : ∀ closed tail, tokens ≠ ⟨.closeParen, closed⟩ :: tail) : afterNested tokens = tokens := by
  unfold afterNested
  split
  · next closed tail => exact absurd rfl (h closed tail)
  · rfl

/-- Whether a paragraph asks for a version after its content, and what is left after that. -/
def version : List Token → Bool × List Token
  | ⟨.directive "Ver", _⟩ :: rest => (true, rest)
  | tokens => (false, tokens)

theorem version_of_ne {tokens : List Token}
    (h : ∀ loc tail, tokens ≠ ⟨.directive "Ver", loc⟩ :: tail) :
    version tokens = (false, tokens) := by
  unfold version
  split
  · next loc tail => exact absurd rfl (h loc tail)
  · rfl

theorem span_eq_of_openParen {reports : Reports} {tokens rest : List Token} {opened : Location}
    (style : String) (loc : Location)
    (h : (leaves reports tokens).rest = ⟨.openParen, opened⟩ :: rest) :
    ∃ reports', span style loc reports tokens =
      ⟨.group loc (.span style)
        ((leaves reports tokens).value ++ (contents (leaves reports tokens).reports rest).value),
        reports', afterNested (contents (leaves reports tokens).reports rest).rest⟩ := by
  rw [span_of_openParen style loc h]
  dsimp only
  split
  · next closed rest' hclose =>
    rw [hclose]
    exact ⟨_, rfl⟩
  · next hclose =>
    rw [afterNested_of_ne hclose]
    exact ⟨_, rfl⟩

theorem paragraph_eq (style : String) (loc : Location) (reports : Reports) (tokens : List Token) :
    ∃ reports', paragraph style loc reports tokens =
      ⟨.group loc (.paragraph style (version (contents reports tokens).rest).1)
        (contents reports tokens).value, reports', (version (contents reports tokens).rest).2⟩ := by
  unfold paragraph
  dsimp only
  split
  · next loc' rest' hversion =>
    rw [hversion]
    exact ⟨_, rfl⟩
  · next hversion =>
    rw [version_of_ne hversion]
    exact ⟨_, rfl⟩

variable {rest : List Token} (hstop : StopsBody rest)

include hstop

theorem extendsBy_overrides (reports reports' : Reports) (tokens : List Token) :
    ExtendsBy rest (overrides reports (tokens ++ rest)) (overrides reports' tokens) := by
  fun_induction overrides reports' tokens generalizing reports with
  | case1 reports' =>
    rcases hstop.cases with rfl | ⟨loc, tail, rfl⟩ | ⟨word, loc, tail, hword, rfl⟩ <;>
      exact ⟨by simp [overrides], by simp [overrides]⟩
  | case2 reports' token rest' name hkind hnone =>
    constructor <;> simp [overrides, hkind, hnone]
  | case3 reports' token name hkind kind hsome value loc rest' tail ih =>
    obtain ⟨hvalue, hrest⟩ := ih reports
    constructor <;> simp [overrides, hkind, hsome, hvalue, hrest, tail]
  | case4 reports' token name hkind kind hsome rest' hint ih =>
    have hmissing : ∀ n loc tail, rest' ++ rest ≠ ⟨.integer n, loc⟩ :: tail := fun n =>
      hstop.append_ne_cons (hint n) fun _ => rfl
    rw [List.cons_append, overrides_of_missing reports hkind hsome hmissing]
    exact ih _
  | case5 reports' token rest' hkind =>
    rw [List.cons_append, overrides_of_ne_directive reports _ hkind]
    exact ⟨rfl, rfl⟩

theorem extendsBy_leaf (keyword : LeafKeyword) (loc : Location) (reports reports' : Reports)
    (tokens : List Token) :
    ExtendsBy rest (leaf keyword loc reports (tokens ++ rest))
      (leaf keyword loc reports' tokens) := by
  by_cases hstring : ∃ s loc' tail, tokens = ⟨.string s, loc'⟩ :: tail
  · obtain ⟨s, loc', tail, rfl⟩ := hstring
    obtain ⟨hvalue, hrest⟩ := extendsBy_overrides hstop reports reports' tail
    cases keyword with
    | nid | sid | media => exact ⟨rfl, rfl⟩
    | rid => exact ⟨by simp [leaf, hvalue], hrest⟩
  · have hmissing : ∀ s loc' tail, tokens ≠ ⟨.string s, loc'⟩ :: tail := fun s loc' tail h =>
      hstring ⟨s, loc', tail, h⟩
    have hmissing' : ∀ s loc' tail, tokens ++ rest ≠ ⟨.string s, loc'⟩ :: tail := fun s =>
      hstop.append_ne_cons (hmissing s) fun _ => rfl
    rw [leaf_of_missing keyword loc reports hmissing',
      leaf_of_missing keyword loc reports' hmissing]
    exact ⟨rfl, rfl⟩

theorem afterNested_append (tokens : List Token) :
    afterNested (tokens ++ rest) = afterNested tokens ++ rest := by
  by_cases hclose : ∃ closed tail, tokens = ⟨.closeParen, closed⟩ :: tail
  · obtain ⟨closed, tail, rfl⟩ := hclose
    rfl
  · have hne : ∀ closed tail, tokens ≠ ⟨.closeParen, closed⟩ :: tail := fun closed tail h =>
      hclose ⟨closed, tail, h⟩
    have hne' := hstop.append_ne_cons hne fun _ => rfl
    rw [afterNested_of_ne hne, afterNested_of_ne hne']

theorem version_append (tokens : List Token) :
    version (tokens ++ rest) = ((version tokens).1, (version tokens).2 ++ rest) := by
  by_cases hversion : ∃ loc tail, tokens = ⟨.directive "Ver", loc⟩ :: tail
  · obtain ⟨loc, tail, rfl⟩ := hversion
    rfl
  · have hne : ∀ loc tail, tokens ≠ ⟨.directive "Ver", loc⟩ :: tail := fun loc tail h =>
      hversion ⟨loc, tail, h⟩
    have hne' := hstop.append_ne_cons hne fun _ => rfl
    rw [version_of_ne hne, version_of_ne hne']

theorem extendsBy_leaves (reports reports' : Reports) (tokens : List Token) :
    ExtendsBy rest (leaves reports (tokens ++ rest)) (leaves reports' tokens) := by
  fun_induction leaves reports' tokens generalizing reports with
  | case1 reports' =>
    rcases hstop.cases with rfl | ⟨loc, tail, rfl⟩ | ⟨word, loc, tail, hword, rfl⟩
    · exact ⟨by simp [leaves], by simp [leaves]⟩
    · exact ⟨by simp [leaves], by simp [leaves]⟩
    · have hleaf := leafKeyword_of_isParagraphStyle hword
      exact ⟨by simp [leaves, hleaf], by simp [leaves, hleaf]⟩
  | case2 reports' token tokens word hkind keyword hword leaf hle tail ih =>
    obtain ⟨hvalue, hrest⟩ := extendsBy_leaf hstop keyword token.location reports reports' tokens
    have htail := ih (Reading.leaf keyword token.location reports (tokens ++ rest)).reports
    rw [List.cons_append, leaves_leaf reports _ hkind hword]
    dsimp only
    rw [hvalue, hrest]
    exact htail.withValue fun nodes => _ ++ nodes
  | case3 reports' token tokens word hkind hword =>
    constructor <;> simp [leaves, hkind, hword]
  | case4 reports' token tokens hkind =>
    rw [List.cons_append, leaves_of_ne_word reports _ hkind]
    exact ⟨rfl, rfl⟩

theorem extendsBy_contents_and_span :
    (∀ reports' tokens, ∀ reports,
      ExtendsBy rest (contents reports (tokens ++ rest)) (contents reports' tokens)) ∧
    ∀ style loc reports' tokens, ∀ reports,
      ExtendsBy rest (span style loc reports (tokens ++ rest))
        (span style loc reports' tokens) := by
  apply contents_span_induction
  case nil =>
    intro reports' reports
    rw [contents_nil, List.nil_append]
    cases rest with
    | nil => exact ⟨by rw [contents_nil], by rw [contents_nil]; rfl⟩
    | cons token tail =>
      rw [contents_of_not_beginsContent reports tail hstop.beginsContent]
      exact ⟨rfl, rfl⟩
  case ofLeaf =>
    intro reports' loc tokens word keyword hword ih reports
    obtain ⟨hvalue, hrest⟩ := extendsBy_leaf hstop keyword loc reports reports' tokens
    have htail := ih (leaf keyword loc reports (tokens ++ rest)).reports
    rw [List.cons_append, contents_leaf reports loc _ hword, contents_leaf reports' loc _ hword]
    dsimp only
    rw [hvalue, hrest]
    exact htail.withValue fun nodes => _ ++ nodes
  case ofSpan =>
    intro reports' loc tokens style hleaf hspan hread ih reports
    obtain ⟨hvalue, hrest⟩ := hread reports
    have htail := ih (span style loc reports (tokens ++ rest)).reports
    rw [List.cons_append, contents_span reports loc _ hleaf hspan,
      contents_span reports' loc _ hleaf hspan]
    dsimp only
    rw [hvalue, hrest]
    exact htail.withValue fun nodes => _ :: nodes
  case other =>
    intro reports' kind loc tokens hother reports
    rw [List.cons_append, contents_of_not_beginsContent reports _ hother,
      contents_of_not_beginsContent reports' _ hother]
    exact ⟨rfl, rfl⟩
  case nested =>
    intro style loc reports' tokens opened tail hopen ih reports
    obtain ⟨hvalue, hrest⟩ := extendsBy_leaves hstop reports reports' tokens
    rw [hopen, List.cons_append] at hrest
    have hnested := ih (leaves reports (tokens ++ rest)).reports
    obtain ⟨_, hlong⟩ := span_eq_of_openParen style loc hrest
    obtain ⟨_, hshort⟩ := span_eq_of_openParen style loc hopen
    rw [hlong, hshort, hvalue, hnested.value, hnested.rest, afterNested_append hstop]
    exact ⟨rfl, rfl⟩
  case plain =>
    intro style loc reports' tokens hne reports
    obtain ⟨hvalue, hrest⟩ := extendsBy_leaves hstop reports reports' tokens
    have hne' := hstop.append_ne_cons hne fun _ => rfl
    rw [← hrest] at hne'
    rw [span_of_not_openParen style loc hne, span_of_not_openParen style loc hne']
    dsimp only
    rw [hvalue, hrest]
    exact ⟨rfl, rfl⟩

theorem extendsBy_paragraph (style : String) (loc : Location) (reports reports' : Reports)
    (tokens : List Token) :
    ExtendsBy rest (paragraph style loc reports (tokens ++ rest))
      (paragraph style loc reports' tokens) := by
  obtain ⟨hvalue, hrest⟩ := (extendsBy_contents_and_span hstop).1 reports' tokens reports
  obtain ⟨_, hlong⟩ := paragraph_eq style loc reports (tokens ++ rest)
  obtain ⟨_, hshort⟩ := paragraph_eq style loc reports' tokens
  rw [hlong, hshort, hvalue, hrest, version_append hstop]
  exact ⟨rfl, rfl⟩

end Reading

end Typikon
