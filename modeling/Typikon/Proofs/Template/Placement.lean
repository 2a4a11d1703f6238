import Mathlib.Data.List.Basic
import Typikon.Proofs.Template.Covering
import Typikon.Proofs.Template.Preorder
import Typikon.Proofs.Template.Printing
import Typikon.Proofs.Template.Progress

/-!
Where nodes stand. Whatever is wrong with a text, the tree read from it nests as the grammar of
templates allows, and each node and override in it stands at a token of its own, the one that it
begins with. Since no production goes back, these tokens come in the order of the text.
-/

namespace Typikon

open Node (NestIn preorderOfAll)

/-! ### First tokens -/

def Override.firstToken (override : Override) : Token :=
  ⟨.directive override.kind.word, override.location⟩

namespace Node

namespace Head

/-- The token that a node begins with. A template, which is all of its text, has none of its own. -/
def firstKind? : Head → Option Token.Kind
  | .atom (.property name _) => some (.word name)
  | .atom (.directive name) => some (.directive name)
  | .atom (.content content) => some (.word content.keyword.word)
  | .group .template => none
  | .group (.pageBlock edge parity) => some (.word (pageBlockWord edge parity))
  | .group (.position slot) => some (.word slot)
  | .group (.lookup _) => some (.directive "Lookup")
  | .group (.paragraph style _) => some (.word style)
  | .group (.span style) => some (.word style)

def overrides : Head → List Override
  | .atom (.content content) => content.overrides
  | _ => []

/-- The tokens that a node at a location and its overrides begin with. -/
def firstTokens (loc : Location) (head : Head) : List Token :=
  head.firstKind?.toList.map (⟨·, loc⟩) ++ head.overrides.map Override.firstToken

/-- The nodes that stand below a template, with the names that they can have there. A directive is
no lookup, and paragraphs and spans have styles, which are more than `p.` and `span.` alone. -/
def IsPlaced : Head → Prop
  | .group .template => False
  | .atom (.directive name) => name ≠ "Lookup"
  | .group (.paragraph style _) => ['p', '.'] <+: style.toList ∧ 2 < style.toList.length
  | .group (.span style) =>
    ['s', 'p', 'a', 'n', '.'] <+: style.toList ∧ 5 < style.toList.length
  | _ => True

theorem map_location_firstTokens {head : Head} (h : head.IsPlaced) (loc : Location) :
    (head.firstTokens loc).map Token.location =
      loc :: head.overrides.map Override.location := by
  have hoverrides : head.overrides.map (Token.location ∘ Override.firstToken) =
      head.overrides.map Override.location := List.map_congr_left fun _ _ => rfl
  rw [firstTokens, List.map_append, List.map_map, List.map_map, hoverrides]
  match head, h with
  | .atom (.property _ _), _ | .atom (.directive _), _ | .atom (.content _), _
  | .group (.pageBlock _ _), _ | .group (.position _), _ | .group (.lookup _), _
  | .group (.paragraph _ _), _ | .group (.span _), _ => rfl

end Head

/-- The locations of all nodes of trees and of their overrides, in the order of the source. -/
def locationsOfAll (nodes : List Node) : List Location :=
  (preorderOfAll nodes).flatMap fun (loc, head) => loc :: head.overrides.map Override.location

/-- The tokens that all nodes of trees and their overrides begin with, in the order of the
source. -/
def firstTokensOfAll (nodes : List Node) : List Token :=
  (preorderOfAll nodes).flatMap fun (loc, head) => head.firstTokens loc

theorem firstTokensOfAll_append (first second : List Node) :
    firstTokensOfAll (first ++ second) = firstTokensOfAll first ++ firstTokensOfAll second := by
  rw [firstTokensOfAll, preorderOfAll_append, List.flatMap_append]
  rfl

theorem map_location_firstTokensOfAll {nodes : List Node}
    (h : ∀ entry ∈ preorderOfAll nodes, entry.2.IsPlaced) :
    (firstTokensOfAll nodes).map Token.location = locationsOfAll nodes := by
  rw [firstTokensOfAll, locationsOfAll, List.map_flatMap]
  apply List.flatMap_congr
  rintro ⟨loc, head⟩ hmem
  exact head.map_location_firstTokens (h _ hmem) loc

namespace Group

/-- The groups in which leaves and spans may stand. -/
def HoldsText (g : Group) : Prop :=
  ∀ head : Head, head.IsText → g.Admits head

theorem holdsText_paragraph (style : String) (version : Bool) :
    (Group.paragraph style version).HoldsText := by
  intro head h
  cases h with
  | leaf content => exact .leafOfParagraph content
  | span inner => exact .spanOfParagraph inner

theorem holdsText_span (style : String) : (Group.span style).HoldsText := by
  intro head h
  cases h with
  | leaf content => exact .leafOfSpan content
  | span inner => exact .spanOfSpan inner

end Group

end Node

/-! ### Readings that place their nodes -/

/-- From some tokens, nodes are read that may stand in a group, and others are left. The tokens that
the nodes begin with are passed over, in the order in which they come. -/
structure Places (g : Node.Group) (nodes : List Node) (tokens rest : List Token) : Prop where
  nestIn : NestIn g nodes
  isPlaced : ∀ entry ∈ preorderOfAll nodes, entry.2.IsPlaced
  sublist : (Node.firstTokensOfAll nodes ++ rest).Sublist tokens

namespace Places

variable {g outer : Node.Group} {nodes others children : List Node} {token : Token}
  {tokens left rest : List Token}

theorem nil (g : Node.Group) (h : rest.Sublist tokens) : Places g [] tokens rest where
  nestIn := Node.nestIn_nil g
  isPlaced := by simp
  sublist := by simpa [Node.firstTokensOfAll] using h

theorem append (h : Places g nodes tokens left) (h' : Places g others left rest) :
    Places g (nodes ++ others) tokens rest where
  nestIn := by
    rw [Node.nestIn_iff_forall, List.forall_mem_append]
    exact ⟨Node.nestIn_iff_forall.mp h.nestIn, Node.nestIn_iff_forall.mp h'.nestIn⟩
  isPlaced := by
    rw [Node.preorderOfAll_append, List.forall_mem_append]
    exact ⟨h.isPlaced, h'.isPlaced⟩
  sublist := by
    rw [Node.firstTokensOfAll_append, List.append_assoc]
    exact (h'.sublist.append_left _).trans h.sublist

/-- Further tokens may be passed over after the nodes. -/
theorem drop (h : Places g nodes tokens left) (hrest : rest.Sublist left) :
    Places g nodes tokens rest :=
  { h with sublist := (hrest.append_left _).trans h.sublist }

/-- Further tokens may be passed over before the nodes. -/
theorem cons (h : Places g nodes tokens rest) (token : Token) :
    Places g nodes (token :: tokens) rest :=
  { h with sublist := h.sublist.cons token }

theorem atom {loc : Location} {a : Node.Atom} {kind : Token.Kind} (hadmits : g.Admits (.atom a))
    (hplaced : (Node.Head.atom a).IsPlaced) (hkind : (Node.Head.atom a).firstKind? = some kind)
    (hrest : ((Node.Head.atom a).overrides.map Override.firstToken ++ rest).Sublist tokens) :
    Places g [.atom loc a] (⟨kind, loc⟩ :: tokens) rest where
  nestIn := by simp [hadmits, Node.head]
  isPlaced := by simpa using hplaced
  sublist := by
    simpa [Node.firstTokensOfAll, Node.Head.firstTokens, hkind] using hrest

theorem group (loc : Location) {kind : Token.Kind} (hadmits : outer.Admits (.group g))
    (hplaced : (Node.Head.group g).IsPlaced) (hkind : (Node.Head.group g).firstKind? = some kind)
    (h : Places g children tokens rest) :
    Places outer [.group loc g children] (⟨kind, loc⟩ :: tokens) rest where
  nestIn := by simp [hadmits, Node.head, h.nestIn]
  isPlaced := by
    rw [Node.preorderOfAll_group, List.forall_mem_cons]
    exact ⟨hplaced, h.isPlaced⟩
  sublist := by
    simpa [Node.firstTokensOfAll, Node.Head.firstTokens, Node.Head.overrides, hkind] using h.sublist

end Places

namespace Reading

variable (reports : Reports) (tokens : List Token)

theorem sublist_overrides :
    ((overrides reports tokens).value.map Override.firstToken ++
      (overrides reports tokens).rest).Sublist tokens := by
  fun_induction overrides reports tokens with
  | case1 | case2 | case5 => exact .refl _
  | case3 reports token name hkind kind hsome value loc rest tail ih =>
    obtain ⟨tokenKind, tokenLoc⟩ := token
    obtain rfl : tokenKind = .directive kind.word := by
      have hword : kind.word = name := by simpa using List.find?_some hsome
      rw [hword]
      exact hkind
    exact (ih.cons _).cons_cons _
  | case4 reports token name hkind kind hsome rest hint ih => exact ih.cons token

theorem places_leaf {g : Node.Group} {keyword : LeafKeyword}
    (hadmits : ∀ content : Content, content.keyword = keyword → g.Admits (.atom (.content content)))
    (loc : Location) :
    Places g (leaf keyword loc reports tokens).value.toList (⟨.word keyword.word, loc⟩ :: tokens)
      (leaf keyword loc reports tokens).rest := by
  unfold leaf
  split
  next s stringLoc rest =>
    cases keyword with
    | nid => exact .atom (hadmits (.literal s) rfl) trivial rfl (List.sublist_cons_self _ _)
    | sid => exact .atom (hadmits (.absolute s) rfl) trivial rfl (List.sublist_cons_self _ _)
    | media => exact .atom (hadmits (.media s) rfl) trivial rfl (List.sublist_cons_self _ _)
    | rid =>
      exact .atom (hadmits (.relative s _) rfl) trivial rfl
        ((sublist_overrides reports rest).cons _)
  · exact .nil g (List.sublist_cons_self _ _)

theorem places_keyword_leaf {g : Node.Group} {token : Token} {word : String}
    {keyword : LeafKeyword} (hkind : token.kind = .word word)
    (hword : LeafKeyword.ofWord? word = some keyword)
    (hadmits : ∀ content : Content, content.keyword = keyword →
      g.Admits (.atom (.content content))) :
    Places g (leaf keyword token.location reports tokens).value.toList (token :: tokens)
      (leaf keyword token.location reports tokens).rest := by
  obtain ⟨kind, loc⟩ := token
  obtain rfl : kind = .word keyword.word := by
    rw [word_of_leafKeyword hword]
    exact hkind
  exact places_leaf reports tokens hadmits loc

/-! ### Bodies -/

theorem places_leaves {g : Node.Group} (hg : g.HoldsText) :
    Places g (leaves reports tokens).value tokens (leaves reports tokens).rest := by
  fun_induction leaves reports tokens with
  | case1 | case3 | case4 => exact .nil g (.refl _)
  | case2 reports token rest word hkind keyword hword leaf hle tail ih =>
    have hread := places_keyword_leaf reports rest hkind hword fun content _ => hg _ (.leaf content)
    exact hread.append ih

theorem places_contents_and_span :
    (∀ reports tokens, ∀ g : Node.Group, g.HoldsText →
      Places g (contents reports tokens).value tokens (contents reports tokens).rest) ∧
    ∀ style loc reports tokens, isSpanStyle style = true → ∀ g : Node.Group, g.HoldsText →
      Places g [(span style loc reports tokens).value] (⟨.word style, loc⟩ :: tokens)
        (span style loc reports tokens).rest := by
  apply contents_span_induction
  case nil =>
    intro reports g hg
    rw [contents_nil]
    exact .nil g (.refl _)
  case ofLeaf =>
    intro reports loc rest word keyword hword ih g hg
    rw [contents_leaf reports loc rest hword]
    have hkind : (Token.mk (.word word) loc).kind = .word word := rfl
    have hread := places_keyword_leaf reports rest hkind hword fun content _ => hg _ (.leaf content)
    exact hread.append (ih g hg)
  case ofSpan =>
    intro reports loc rest style hleaf hspan hread ih g hg
    rw [contents_span reports loc rest hleaf hspan]
    exact (hread hspan g hg).append (ih g hg)
  case other =>
    intro reports kind loc rest hother g hg
    rw [contents_of_not_beginsContent reports rest hother]
    exact .nil g (.refl _)
  case nested =>
    intro style loc reports tokens opened rest hopen ih hstyle g hg
    have hinside := Node.Group.holdsText_span style
    have hleaves := places_leaves reports tokens hinside
    rw [hopen] at hleaves
    have hread := Places.group loc (hg _ (.span style)) (isSpanStyle_iff.mp hstyle) rfl
      (hleaves.append ((ih _ hinside).cons ⟨.openParen, opened⟩))
    rw [span_of_openParen style loc hopen]
    dsimp only
    split
    · next closed rest' hclose =>
      rw [hclose] at hread
      exact hread.drop (List.sublist_cons_self _ _)
    · exact hread
  case plain =>
    intro style loc reports tokens hne hstyle g hg
    rw [span_of_not_openParen style loc hne]
    exact .group loc (hg _ (.span style)) (isSpanStyle_iff.mp hstyle) rfl
      (places_leaves reports tokens (Node.Group.holdsText_span style))

theorem places_paragraph {style : String} (hstyle : isParagraphStyle style = true)
    (loc : Location) :
    Places .template [(paragraph style loc reports tokens).value] (⟨.word style, loc⟩ :: tokens)
      (paragraph style loc reports tokens).rest := by
  have hplaced := isParagraphStyle_iff.mp hstyle
  have hcontents (version : Bool) :=
    places_contents_and_span.1 reports tokens _ (Node.Group.holdsText_paragraph style version)
  unfold paragraph
  dsimp only
  split
  · next versionLoc rest hrest =>
    rw [hrest] at hcontents
    exact .group loc (.paragraph style true) hplaced rfl
      ((hcontents true).drop (List.sublist_cons_self _ _))
  · exact .group loc (.paragraph style false) hplaced rfl (hcontents false)

theorem places_body :
    Places .template (body reports tokens).value tokens (body reports tokens).rest := by
  fun_induction body reports tokens with
  | case1 => exact .nil _ (.refl _)
  | case2 => exact .nil _ (List.sublist_cons_self _ _)
  | case3 reports token rest hclose style hstyle paragraph hle tail ih =>
    obtain ⟨kind, loc⟩ := token
    obtain ⟨rfl, hparagraph⟩ := paragraphStyle?_eq_some_iff.mp hstyle
    exact (places_paragraph reports rest hparagraph loc).append ih
  | case4 reports token rest hclose hstyle hle ih =>
    have hskip : (rest.dropWhile fun t => !isBodyToken t).Sublist (token :: rest) :=
      (List.dropWhile_sublist _).cons token
    exact (Places.nil .template hskip).append ih

/-! ### Page blocks -/

theorem places_references (number : Option Int) :
    Places (.lookup number) (references reports tokens).value tokens
      (references reports tokens).rest := by
  fun_induction references reports tokens with
  | case1 | case3 | case4 | case5 => exact .nil _ (.refl _)
  | case2 reports token rest word hkind keyword hword hreference leaf hle tail ih =>
    refine (places_keyword_leaf reports rest hkind hword ?_).append ih
    rintro content rfl
    cases content with
    | absolute path => exact .absolute path
    | relative path overrides => exact .relative path overrides
    | literal text => simp [Content.keyword] at hreference
    | media path => simp [Content.keyword] at hreference

theorem places_lookup (slot : String) (loc : Location) :
    Places (.position slot) [(lookup loc reports tokens).value]
      (⟨.directive "Lookup", loc⟩ :: tokens) (lookup loc reports tokens).rest := by
  refine .group loc (.lookup _) trivial rfl ((places_references reports tokens _).drop ?_)
  exact (passesOver_library _ _).suffix.sublist

theorem places_slotItems (slot : String) :
    Places (.position slot) (slotItems reports tokens).value tokens
      (slotItems reports tokens).rest := by
  fun_induction slotItems reports tokens with
  | case1 | case5 | case6 => exact .nil _ (.refl _)
  | case2 reports token rest lookup hle tail hkind ih =>
    obtain ⟨kind, loc⟩ := token
    obtain rfl : kind = .directive "Lookup" := hkind
    exact (places_lookup reports rest slot loc).append ih
  | case3 reports token rest name hkind hname hle tail ih =>
    obtain ⟨kind, loc⟩ := token
    obtain rfl : kind = .directive name := hkind
    exact (Places.atom (.directive name) hname rfl (.refl rest)).append ih
  | case4 reports token rest leaf hle tail hkind ih =>
    obtain ⟨kind, loc⟩ := token
    obtain rfl : kind = .word LeafKeyword.nid.word := hkind
    refine (places_leaf reports rest ?_ loc).append ih
    intro content hcontent
    cases content with
    | literal text => exact .literal text
    | absolute path | relative path overrides | media path => cases hcontent

theorem places_positions (edge : PageEdge) (parity : Parity) :
    Places (.pageBlock edge parity) (positions reports tokens).value tokens
      (positions reports tokens).rest := by
  fun_induction positions reports tokens with
  | case1 | case2 | case4 => exact .nil _ (.refl _)
  | case3 reports token rest slot hkind hnext position hle tail ih =>
    obtain ⟨kind, loc⟩ := token
    obtain rfl : kind = .word slot := hkind
    exact (Places.group loc (.position slot) trivial rfl
      (places_slotItems reports rest slot)).append ih

theorem places_pageBlock {word : String} {edge : PageEdge} {parity : Parity}
    (hword : pageBlockOfWord? word = some (edge, parity)) (loc equalsLoc : Location) :
    Places .template [(pageBlock edge parity loc reports tokens).value]
      (⟨.word word, loc⟩ :: ⟨.equals, equalsLoc⟩ :: tokens)
      (pageBlock edge parity loc reports tokens).rest := by
  obtain rfl := pageBlockWord_of_pageBlockOfWord? hword
  exact .group loc (.pageBlock edge parity) trivial rfl
    ((places_positions reports tokens edge parity).cons _)

/-! ### Items -/

theorem places_property (name : String) (loc equalsLoc : Location) :
    Places .template (property name loc reports tokens).value.toList
      (⟨.word name, loc⟩ :: ⟨.equals, equalsLoc⟩ :: tokens)
      (property name loc reports tokens).rest := by
  unfold property
  split
  · next s valueLoc rest =>
    exact .atom (.property name (.string s)) trivial rfl (((List.Sublist.refl rest).cons _).cons _)
  · next n valueLoc rest =>
    exact .atom (.property name (.integer n)) trivial rfl (((List.Sublist.refl rest).cons _).cons _)
  · exact .nil _ (((List.Sublist.refl _).cons _).cons _)

theorem places_items :
    Places .template (items reports tokens).value tokens (items reports tokens).rest := by
  fun_induction items reports tokens with
  | case1 => exact .nil _ (.refl _)
  | case2 reports loc rest body hle tail ih =>
    exact ((places_body reports rest).append ih).cons _
  | case3 reports word loc loc' rest edge parity hword block hle tail ih =>
    exact (places_pageBlock reports rest hword loc loc').append ih
  | case4 reports word loc loc' rest hword property hle tail ih =>
    exact (places_property reports rest word loc loc').append ih
  | case5 reports token rest hopen hassignment hle ih =>
    have hskip : (skipToItem rest).Sublist (token :: rest) :=
      (passesOver_skipToItem rest).suffix.sublist.cons token
    exact (Places.nil .template hskip).append ih

end Reading

namespace Template

theorem places_ofText (text : String) :
    Places .template (ofText text).items (Scan.ofText text).tokens [] := by
  have hread := Reading.places_items (.none (Scan.ofText text).stop) (Scan.ofText text).tokens
  rwa [Reading.rest_items] at hread

theorem pairwise_lt_locationsOfAll_ofText (text : String) :
    (Node.locationsOfAll (ofText text).items).Pairwise (· < ·) := by
  have hread := places_ofText text
  have hsublist := hread.sublist
  rw [List.append_nil] at hsublist
  have hascending := (List.pairwise_append.mp (Scan.pairwise_lt_locations_ofText text)).1
  rw [← Node.map_location_firstTokensOfAll hread.isPlaced]
  exact hascending.sublist (hsublist.map Token.location)

theorem pairwise_lt_preorderOfAll_ofText (text : String) :
    (preorderOfAll (ofText text).items).Pairwise fun first second => first.1 < second.1 := by
  have hlocations := (List.pairwise_flatMap.mp (pairwise_lt_locationsOfAll_ofText text)).2
  exact hlocations.imp fun h => h _ List.mem_cons_self _ List.mem_cons_self

/-- The tree read from any text nests as the grammar of templates allows, with the names and styles
that the nodes in it can have. In the order of the source, all nodes and overrides stand at growing
locations, each at the token of the text that it begins with. -/
theorem nestIn_and_sublist_ofText (text : String) :
    let items := (ofText text).items
    NestIn .template items ∧
      (∀ entry ∈ preorderOfAll items, entry.2.IsPlaced) ∧
      (Node.locationsOfAll items).Pairwise (· < ·) ∧
      (Node.firstTokensOfAll items).map Token.location = Node.locationsOfAll items ∧
      (Node.firstTokensOfAll items).Sublist (Scan.ofText text).tokens := by
  have hread := places_ofText text
  have hsublist := hread.sublist
  rw [List.append_nil] at hsublist
  exact ⟨hread.nestIn, hread.isPlaced, pairwise_lt_locationsOfAll_ofText text,
    Node.map_location_firstTokensOfAll hread.isPlaced, hsublist⟩

end Template

end Typikon
