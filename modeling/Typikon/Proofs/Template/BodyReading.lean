import Typikon.Proofs.Template.Locality
import Typikon.Proofs.Template.Printing

/-!
Reading the tokens of bodies back. From the tokens of the leaves and spans of a paragraph those
leaves and spans are read, with their own locations and without a report, if what follows the tokens
neither begins more content nor goes on with an override.
-/

namespace Typikon

theorem exists_of_map_kind_eq_cons {tokens : List Token} {kind : Token.Kind}
    {kinds : List Token.Kind} (h : tokens.map Token.kind = kind :: kinds) :
    ∃ loc rest, tokens = ⟨kind, loc⟩ :: rest ∧ rest.map Token.kind = kinds := by
  obtain ⟨⟨kind', loc⟩, rest, rfl, rfl, hrest⟩ := List.map_eq_cons_iff.mp h
  exact ⟨loc, rest, rfl, hrest⟩

/-- Tokens of which the first, if there is one, is of a kind with a property. -/
def Begins (p : Token.Kind → Prop) (tokens : List Token) : Prop :=
  ∀ token tail, tokens = token :: tail → p token.kind

namespace Begins

variable {p q : Token.Kind → Prop} {token : Token} {tokens tail rest : List Token}

theorem nil : Begins p [] := by
  intro token tail heq
  cases heq

theorem cons (h : p token.kind) (tail : List Token) : Begins p (token :: tail) := by
  intro other tail' heq
  cases heq
  exact h

theorem head (h : Begins p (token :: tail)) : p token.kind :=
  h token tail rfl

theorem mono (h : Begins p tokens) (hpq : ∀ kind, p kind → q kind) : Begins q tokens := by
  intro token tail heq
  exact hpq token.kind (h token tail heq)

theorem append {kinds : List Token.Kind} (hkinds : tokens.map Token.kind = kinds)
    (hfirst : ∀ kind, kinds.head? = some kind → p kind) (hrest : Begins p rest) :
    Begins p (tokens ++ rest) := by
  cases tokens with
  | nil => exact hrest
  | cons token tokens =>
    apply cons
    exact hfirst token.kind (by rw [← hkinds]; rfl)

end Begins

namespace Token.Kind

/-- The tokens that are no override. -/
def EndsOverrides : Kind → Prop
  | .directive name => OverrideKind.ofWord? name = none
  | _ => True

/-- The tokens that are no override and begin no leaf or span. -/
def EndsContent (kind : Kind) : Prop :=
  kind.EndsOverrides ∧ Reading.beginsContent kind = false

end Token.Kind

theorem OverrideKind.ofWord?_word (kind : OverrideKind) : ofWord? kind.word = some kind := by
  cases kind <;> rfl

theorem LeafKeyword.ofWord?_word (keyword : LeafKeyword) : ofWord? keyword.word = some keyword := by
  cases keyword <;> rfl

namespace Reading

variable (reports : Reports)

theorem overrides_of_ends {rest : List Token} (h : Begins Token.Kind.EndsOverrides rest) :
    overrides reports rest = ⟨[], reports, rest⟩ := by
  cases rest with
  | nil => rw [overrides]
  | cons token tail =>
    obtain ⟨kind, loc⟩ := token
    cases kind with
    | directive name =>
      have hnone : OverrideKind.ofWord? name = none := h.head
      rw [overrides]
      simp only [hnone]
    | _ => exact overrides_of_ne_directive reports tail fun _ hkind => by cases hkind

theorem exists_overrides_eq {list : List Override} {tokens rest : List Token}
    (hkinds : tokens.map Token.kind = list.flatMap Override.kinds)
    (hrest : Begins Token.Kind.EndsOverrides rest) :
    ∃ read, overrides reports (tokens ++ rest) = ⟨read, reports, rest⟩ ∧
      read.map Override.unlocated = list.map Override.unlocated := by
  induction list generalizing tokens with
  | nil =>
    obtain rfl := List.map_eq_nil_iff.mp hkinds
    exact ⟨[], overrides_of_ends reports hrest, rfl⟩
  | cons override list ih =>
    obtain ⟨loc, tail, rfl, htail⟩ := exists_of_map_kind_eq_cons hkinds
    obtain ⟨loc', others, rfl, hothers⟩ := exists_of_map_kind_eq_cons htail
    obtain ⟨read, hread, hsame⟩ := ih hothers
    refine ⟨⟨override.kind, override.value, loc⟩ :: read, ?_, ?_⟩
    · rw [List.cons_append, List.cons_append, overrides]
      simp only [OverrideKind.ofWord?_word, hread]
    · rw [List.map_cons, List.map_cons, hsame]
      rfl

theorem exists_leaf_eq {content : Content} {tokens rest : List Token} (loc : Location)
    (hkinds : tokens.map Token.kind =
      .string content.raw :: content.overrides.flatMap Override.kinds)
    (hrest : Begins Token.Kind.EndsOverrides rest) :
    ∃ read : Content, leaf content.keyword loc reports (tokens ++ rest) =
        ⟨some (.atom loc (.content read)), reports, rest⟩ ∧
      read.unlocated = content.unlocated := by
  obtain ⟨loc', tail, rfl, htail⟩ := exists_of_map_kind_eq_cons hkinds
  cases content with
  | relative path list =>
    obtain ⟨read, hread, hsame⟩ := exists_overrides_eq reports htail hrest
    refine ⟨.relative path read, ?_, congrArg (Content.relative path) hsame⟩
    rw [List.cons_append]
    simp only [leaf, Content.keyword, Content.raw, hread]
  | literal text =>
    obtain rfl := List.map_eq_nil_iff.mp htail
    exact ⟨.literal text, rfl, rfl⟩
  | absolute path =>
    obtain rfl := List.map_eq_nil_iff.mp htail
    exact ⟨.absolute path, rfl, rfl⟩
  | media path =>
    obtain rfl := List.map_eq_nil_iff.mp htail
    exact ⟨.media path, rfl, rfl⟩

theorem exists_kinds_eq_word {node : Node} (h : node.head.IsText) :
    ∃ word kinds, node.kinds = .word word :: kinds := by
  cases node with
  | atom loc a =>
    cases h with
    | leaf content => exact ⟨_, _, by rw [Node.kinds, Node.Atom.kinds, Content.kinds]⟩
  | group loc g children =>
    cases h with
    | span style =>
      exact ⟨style, _, by rw [Node.kinds, Node.Group.opening, List.cons_append]⟩

theorem endsOverrides_of_head?_eq {g : Node.Group} {nodes : List Node} {kind : Token.Kind}
    (hg : g.IsOfText) (hnest : Node.NestIn g nodes)
    (hhead : (Node.kindsOfAll nodes).head? = some kind) : kind.EndsOverrides := by
  cases nodes with
  | nil =>
    rw [Node.kindsOfAll] at hhead
    cases hhead
  | cons node nodes =>
    rw [Node.nestIn_cons] at hnest
    obtain ⟨word, kinds, hword⟩ := exists_kinds_eq_word (hg _ hnest.1)
    rw [Node.kindsOfAll, hword] at hhead
    cases hhead
    trivial

theorem contents_of_ends {rest : List Token} (h : Begins Token.Kind.EndsContent rest) :
    contents reports rest = ⟨[], reports, rest⟩ := by
  cases rest with
  | nil => exact contents_nil reports
  | cons token tail => exact contents_of_not_beginsContent reports tail h.head.2

/-- A span whose content is read up to a closing parenthesis is read whole. -/
theorem span_eq_of_contents {tokens rest : List Token} {nodes : List Node} {closed : Location}
    (style : String) (loc opened : Location)
    (h : contents reports tokens = ⟨nodes, reports, ⟨.closeParen, closed⟩ :: rest⟩)
    (hne : nodes ≠ []) :
    span style loc reports (⟨.openParen, opened⟩ :: tokens) =
      ⟨.group loc (.span style) nodes, reports, rest⟩ := by
  have hleaves : leaves reports (⟨.openParen, opened⟩ :: tokens) =
      ⟨[], reports, ⟨.openParen, opened⟩ :: tokens⟩ :=
    leaves_of_ne_word reports tokens fun _ h => by cases h
  rw [span_of_openParen style loc (congrArg Reading.rest hleaves), hleaves]
  dsimp only
  rw [h]
  simp only [List.isEmpty_eq_false_iff.mpr hne, Bool.false_eq_true, ↓reduceIte, List.nil_append]

theorem ne_nil_of_unlocatedAll_eq {read nodes : List Node}
    (hsame : Node.unlocatedAll read = Node.unlocatedAll nodes) (hne : nodes ≠ []) : read ≠ [] := by
  rintro rfl
  cases nodes with
  | nil => exact hne rfl
  | cons node nodes =>
    rw [Node.unlocatedAll, Node.unlocatedAll] at hsame
    cases hsame

/-- Leaves and spans are read back from their tokens. -/
theorem exists_contents_eq {g : Node.Group} (hg : g.IsOfText) :
    (nodes : List Node) → Node.NestIn g nodes → Node.AreWellFormed nodes →
      ∀ {tokens rest : List Token}, tokens.map Token.kind = Node.kindsOfAll nodes →
        Begins Token.Kind.EndsContent rest →
        ∃ read, contents reports (tokens ++ rest) = ⟨read, reports, rest⟩ ∧
          Node.unlocatedAll read = Node.unlocatedAll nodes
  | [], _, _, tokens, rest, hkinds, hrest => by
    rw [Node.kindsOfAll] at hkinds
    obtain rfl := List.map_eq_nil_iff.mp hkinds
    exact ⟨[], contents_of_ends reports hrest, rfl⟩
  | .atom loc a :: nodes, hnest, hwf, tokens, rest, hkinds, hrest => by
    rw [Node.nestIn_cons] at hnest
    rw [Node.AreWellFormed] at hwf
    obtain ⟨hadmits, -, hnest⟩ := hnest
    rw [Node.kindsOfAll] at hkinds
    obtain ⟨leafTokens, others, rfl, hleaf, hothers⟩ := List.map_eq_append_iff.mp hkinds
    obtain ⟨read, hread, hsame⟩ := exists_contents_eq hg nodes hnest hwf.2 hothers hrest
    cases hg _ hadmits with
    | leaf content =>
      rw [Node.kinds, Node.Atom.kinds, Content.kinds] at hleaf
      obtain ⟨loc', tail, rfl, htail⟩ := exists_of_map_kind_eq_cons hleaf
      have hends : Begins Token.Kind.EndsOverrides (others ++ rest) :=
        .append hothers (fun _ => endsOverrides_of_head?_eq hg hnest) (hrest.mono fun _ h => h.1)
      obtain ⟨leafRead, hleafRead, hleafSame⟩ := exists_leaf_eq reports loc' htail hends
      refine ⟨.atom loc' (.content leafRead) :: read, ?_, ?_⟩
      · rw [List.cons_append, List.cons_append, List.append_assoc,
          contents_leaf reports loc' _ content.keyword.ofWord?_word, hleafRead]
        dsimp only
        rw [hread]
        rfl
      · simp only [Node.unlocatedAll, Node.unlocated, Node.Atom.unlocated, hleafSame, hsame]
  | .group loc g' children :: nodes, hnest, hwf, tokens, rest, hkinds, hrest => by
    rw [Node.nestIn_cons, Node.nests_group] at hnest
    rw [Node.AreWellFormed, Node.IsWellFormed] at hwf
    obtain ⟨hadmits, hchildren, hnest⟩ := hnest
    obtain ⟨⟨hgroup, hneeds, hwfChildren⟩, hwf⟩ := hwf
    rw [Node.kindsOfAll] at hkinds
    obtain ⟨spanTokens, others, rfl, hspan, hothers⟩ := List.map_eq_append_iff.mp hkinds
    obtain ⟨read, hread, hsame⟩ := exists_contents_eq hg nodes hnest hwf hothers hrest
    cases hg _ hadmits with
    | span style =>
      rw [Node.kinds, Node.Group.opening, Node.Group.closing, List.cons_append, List.cons_append,
        List.nil_append] at hspan
      obtain ⟨loc', tail, rfl, htail⟩ := exists_of_map_kind_eq_cons hspan
      obtain ⟨opened, inner, rfl, hinner⟩ := exists_of_map_kind_eq_cons htail
      obtain ⟨childTokens, closing, rfl, hchildTokens, hclosing⟩ :=
        List.map_eq_append_iff.mp hinner
      obtain ⟨closed, last, rfl, hlast⟩ := exists_of_map_kind_eq_cons hclosing
      obtain rfl := List.map_eq_nil_iff.mp hlast
      have hclosed : Begins Token.Kind.EndsContent (⟨.closeParen, closed⟩ :: (others ++ rest)) :=
        .cons ⟨trivial, rfl⟩ _
      obtain ⟨nested, hnested, hnestedSame⟩ := exists_contents_eq
        (Node.Group.isOfText_span style) children hchildren hwfChildren hchildTokens hclosed
      have hne := ne_nil_of_unlocatedAll_eq hnestedSame (hneeds trivial)
      have hspanRead := span_eq_of_contents reports style loc' opened hnested hne
      refine ⟨.group loc' (.span style) nested :: read, ?_, ?_⟩
      · have hword := leafKeyword_of_isSpanStyle hgroup.2
        have happend : ⟨.word style, loc'⟩ :: ⟨.openParen, opened⟩ ::
            (childTokens ++ [⟨.closeParen, closed⟩]) ++ others ++ rest =
            ⟨.word style, loc'⟩ :: ⟨.openParen, opened⟩ ::
            (childTokens ++ (⟨.closeParen, closed⟩ :: (others ++ rest))) := by simp
        rw [happend, contents_span reports loc' _ hword hgroup.2, hspanRead]
        dsimp only
        rw [hread]
      · simp only [Node.unlocatedAll, Node.unlocated, hnestedSame, hsame]

theorem paragraph_eq_of_contents {tokens rest : List Token} {nodes : List Node} (style : String)
    (loc : Location) (h : contents reports tokens = ⟨nodes, reports, rest⟩) (hne : nodes ≠ []) :
    paragraph style loc reports tokens =
      ⟨.group loc (.paragraph style (version rest).1) nodes, reports, (version rest).2⟩ := by
  unfold paragraph
  rw [h]
  simp only [List.isEmpty_eq_false_iff.mpr hne, Bool.false_eq_true, ↓reduceIte]
  split
  · rfl
  · next hne =>
    rw [version_of_ne hne]

theorem body_eq_of_paragraph {style : String} {tokens rest : List Token} {node : Node}
    {closed : Location} (loc : Location) (hstyle : isParagraphStyle style = true)
    (h : paragraph style loc reports tokens = ⟨node, reports, ⟨.closeBrace, closed⟩ :: rest⟩) :
    body reports (⟨.word style, loc⟩ :: tokens) = ⟨[node], reports, rest⟩ := by
  have hend : body reports (⟨.closeBrace, closed⟩ :: rest) = ⟨[], reports, rest⟩ := by
    rw [body, if_pos rfl]
  have hword : paragraphStyle? (.word style) = some style := if_pos hstyle
  rw [body, if_neg (fun hkind => by cases hkind)]
  simp only [hword, h, hend]

theorem exists_version_eq {style : String} {asked : Bool} {tokens : List Token} (rest : List Token)
    (hkinds : tokens.map Token.kind = (Node.Group.paragraph style asked).closing) :
    Begins Token.Kind.EndsContent (tokens ++ rest) ∧
      ∃ closed, version (tokens ++ rest) = (asked, ⟨.closeBrace, closed⟩ :: rest) := by
  cases asked with
  | true =>
    obtain ⟨loc, tail, rfl, htail⟩ := exists_of_map_kind_eq_cons hkinds
    obtain ⟨closed, last, rfl, hlast⟩ := exists_of_map_kind_eq_cons htail
    obtain rfl := List.map_eq_nil_iff.mp hlast
    exact ⟨.cons ⟨rfl, rfl⟩ _, closed, rfl⟩
  | false =>
    obtain ⟨closed, last, rfl, hlast⟩ := exists_of_map_kind_eq_cons hkinds
    obtain rfl := List.map_eq_nil_iff.mp hlast
    exact ⟨.cons ⟨trivial, rfl⟩ _, closed, rfl⟩

theorem exists_body_eq {style : String} {asked : Bool} {children : List Node}
    {tokens rest : List Token} (hnest : Node.NestIn (.paragraph style asked) children)
    (hwf : Node.AreWellFormed children) (hne : children ≠ [])
    (hstyle : isParagraphStyle style = true)
    (hkinds : tokens.map Token.kind =
      .word style :: (Node.kindsOfAll children ++ (Node.Group.paragraph style asked).closing)) :
    ∃ loc read, body reports (tokens ++ rest) =
        ⟨[.group loc (.paragraph style asked) read], reports, rest⟩ ∧
      Node.unlocatedAll read = Node.unlocatedAll children := by
  obtain ⟨loc, tail, rfl, htail⟩ := exists_of_map_kind_eq_cons hkinds
  obtain ⟨childTokens, closing, rfl, hchildren, hclosing⟩ := List.map_eq_append_iff.mp htail
  obtain ⟨hends, closed, hversion⟩ := exists_version_eq rest hclosing
  obtain ⟨read, hread, hsame⟩ := exists_contents_eq reports
    (Node.Group.isOfText_paragraph style asked) children hnest hwf hchildren hends
  have hparagraph := paragraph_eq_of_contents reports style loc hread
    (ne_nil_of_unlocatedAll_eq hsame hne)
  rw [hversion] at hparagraph
  refine ⟨loc, read, ?_, hsame⟩
  rw [List.cons_append, List.append_assoc]
  exact body_eq_of_paragraph reports loc hstyle hparagraph

end Reading

end Typikon
