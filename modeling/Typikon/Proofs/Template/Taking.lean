import Typikon.Proofs.Template.Printing
import Typikon.Proofs.Template.Progress

/-!
What readings take. Each production takes tokens one after another and puts them into nodes,
punctuation aside. Only where it reports something does it pass over others, and what the report
quotes is among the tokens. So a reading is a course of a few kinds of steps, and what each of these
preserves holds of every reading.
-/

namespace Typikon

/-! ### Significant tokens -/

namespace Token.Kind

def isPunctuation : Kind → Bool
  | .equals | .openBrace | .closeBrace | .openParen | .closeParen => true
  | _ => false

/-- The tokens that are no punctuation. -/
def significant (kinds : List Kind) : List Kind :=
  kinds.filter fun kind => !kind.isPunctuation

@[simp]
theorem significant_nil : significant [] = [] := rfl

theorem significant_cons {kind : Kind} (h : kind.isPunctuation = false) (kinds : List Kind) :
    significant (kind :: kinds) = kind :: significant kinds := by
  simp [significant, h]

theorem significant_cons_of_punctuation {kind : Kind} (h : kind.isPunctuation = true)
    (kinds : List Kind) : significant (kind :: kinds) = significant kinds := by
  simp [significant, h]

theorem significant_append (first second : List Kind) :
    significant (first ++ second) = significant first ++ significant second :=
  List.filter_append first second

theorem significant_eq_self {kinds : List Kind} (h : ∀ kind ∈ kinds, kind.isPunctuation = false) :
    significant kinds = kinds := by
  apply List.filter_eq_self.mpr
  intro kind hmem
  rw [h kind hmem]
  rfl

end Token.Kind

open Token.Kind (significant significant_nil significant_cons significant_cons_of_punctuation
  significant_append significant_eq_self)

namespace Node

/-- The tokens that nodes stand for, in the order of the source and without punctuation. -/
def significantOfAll (nodes : List Node) : List Token.Kind :=
  significant (kindsOfAll nodes)

@[simp]
theorem significantOfAll_nil : significantOfAll [] = [] := by
  rw [significantOfAll, kindsOfAll, significant_nil]

theorem significantOfAll_cons (node : Node) (nodes : List Node) :
    significantOfAll (node :: nodes) = significant node.kinds ++ significantOfAll nodes := by
  rw [significantOfAll, kindsOfAll, significant_append]
  rfl

theorem significantOfAll_append (first second : List Node) :
    significantOfAll (first ++ second) = significantOfAll first ++ significantOfAll second := by
  induction first with
  | nil => rw [List.nil_append, significantOfAll_nil, List.nil_append]
  | cons node first ih =>
    rw [List.cons_append, significantOfAll_cons, ih, significantOfAll_cons, List.append_assoc]

theorem significant_group (loc : Location) (g : Group) (children : List Node) :
    significant (Node.group loc g children).kinds =
      significant g.opening ++ (significantOfAll children ++ significant g.closing) := by
  rw [kinds, significant_append, significant_append]
  rfl

theorem significantOfAll_leaf (loc : Location) (content : Content) :
    significantOfAll [.atom loc (.content content)] = content.kinds := by
  rw [significantOfAll_cons, significantOfAll_nil, List.append_nil, kinds]
  apply significant_eq_self
  intro kind hmem
  simp only [Atom.kinds, Content.kinds, List.mem_cons, List.mem_flatMap, Override.kinds,
    List.not_mem_nil, or_false] at hmem
  rcases hmem with rfl | rfl | ⟨override, -, rfl | rfl⟩ <;> rfl

theorem significant_span (loc : Location) (style : String) (children : List Node) :
    significant (Node.group loc (.span style) children).kinds =
      .word style :: significantOfAll children := by
  rw [significant_group]
  simp [Group.opening, Group.closing, significant, Token.Kind.isPunctuation]

theorem significant_paragraph (loc : Location) (style : String) (version : Bool)
    (children : List Node) :
    significant (Node.group loc (.paragraph style version) children).kinds =
      .word style :: (significantOfAll children ++ if version then [.directive "Ver"] else []) := by
  rw [significant_group]
  cases version <;> simp [Group.opening, Group.closing, significant, Token.Kind.isPunctuation]

theorem significant_lookup (loc : Location) (library : Option Int) (children : List Node) :
    significant (Node.group loc (.lookup library) children).kinds =
      .directive "Lookup" :: (significantOfAll children ++ (Group.lookup library).closing) := by
  rw [significant_group]
  cases library <;> simp [Group.opening, Group.closing, significant, Token.Kind.isPunctuation]

theorem significant_position (loc : Location) (slot : String) (children : List Node) :
    significant (Node.group loc (.position slot) children).kinds =
      .word slot :: significantOfAll children := by
  rw [significant_group]
  simp [Group.opening, Group.closing, significant, Token.Kind.isPunctuation]

theorem significant_pageBlock (loc : Location) (edge : PageEdge) (parity : Parity)
    (children : List Node) :
    significant (Node.group loc (.pageBlock edge parity) children).kinds =
      .word (pageBlockWord edge parity) :: significantOfAll children := by
  rw [significant_group]
  simp [Group.opening, Group.closing, significant, Token.Kind.isPunctuation]

theorem significantOfAll_directive (loc : Location) (name : String) (nodes : List Node) :
    significantOfAll (.atom loc (.directive name) :: nodes) =
      .directive name :: significantOfAll nodes := by
  rw [significantOfAll_cons, kinds, Atom.kinds, significant_cons rfl, significant_nil,
    List.singleton_append]

theorem significantOfAll_property (loc : Location) (name : String) (value : Value) :
    significantOfAll [.atom loc (.property name value)] = [.word name, value.kind] := by
  rw [significantOfAll_cons, significantOfAll_nil, List.append_nil, kinds]
  cases value <;> rfl

end Node

/-! ### Steps of readings -/

/-- The tokens that are named where something is asked for. -/
def Expectation.quoted : Expectation → List Token.Kind
  | .slotItem name | .paragraphContent name | .nestedContent name | .string name => [.word name]
  | _ => []

/-- The tokens that the message of a syntax error quotes. -/
def SyntaxError.Cause.quoted : SyntaxError.Cause → List Token.Kind
  | .lexical cause => [.error cause]
  | .unexpected what found => what.quoted ++ found.toList
  | .emptySpan style => [.word style]

theorem SyntaxError.Cause.mem_quoted_ofNext {what : Expectation} {next : Option Token.Kind}
    {kind : Token.Kind} (h : kind ∈ (ofNext what next).quoted) :
    kind ∈ what.quoted ∨ next = some kind := by
  unfold ofNext at h
  split at h
  · exact .inr (congrArg some (List.mem_singleton.mp h).symm)
  · exact (List.mem_append.mp h).imp_right Option.mem_toList.mp

/-- Reading goes on from some reports and tokens to others. It takes the tokens in between and
passes over punctuation. Where it reports something it may drop tokens. What it reports quotes
tokens that were there. -/
inductive Takes : List Token.Kind → Reports → List Token → Reports → List Token → Prop
  | refl (reports : Reports) (tokens : List Token) : Takes [] reports tokens reports tokens
  | trans {kinds others : List Token.Kind} {reports between later : Reports}
    {tokens left rest : List Token} (h : Takes kinds reports tokens between left)
    (h' : Takes others between left later rest) : Takes (kinds ++ others) reports tokens later rest
  | cons {kinds : List Token.Kind} {kind : Token.Kind} {reports later : Reports}
    {tokens rest : List Token} (hkind : kind.isPunctuation = false) (loc : Location)
    (h : Takes kinds reports tokens later rest) :
    Takes (kind :: kinds) reports (⟨kind, loc⟩ :: tokens) later rest
  | punctuation {kinds : List Token.Kind} {kind : Token.Kind} {reports later : Reports}
    {tokens rest : List Token} (hkind : kind.isPunctuation = true) (loc : Location)
    (h : Takes kinds reports tokens later rest) :
    Takes kinds reports (⟨kind, loc⟩ :: tokens) later rest
  | expected {kinds : List Token.Kind} {reports later : Reports}
    {tokens rest found next : List Token} (h : Takes kinds reports tokens later rest)
    (what : Expectation) (hwhat : what.quoted ⊆ tokens.map Token.kind) (hfound : found <:+ rest)
    (hnext : next <:+ rest) : Takes kinds reports tokens (later.expected what found) next
  | add {kinds : List Token.Kind} {reports later : Reports} {tokens rest : List Token}
    (h : Takes kinds reports tokens later rest) (cause : SyntaxError.Cause)
    (hcause : cause.quoted ⊆ tokens.map Token.kind) (loc : Location) :
    Takes kinds reports tokens (later.add cause loc) rest

namespace Takes

variable {kinds : List Token.Kind} {kind : Token.Kind} {reports later : Reports}
  {tokens rest : List Token}

theorem subset_map_kind_cons (kind : Token.Kind) (loc : Location) (tokens : List Token) :
    [kind] ⊆ (⟨kind, loc⟩ :: tokens : List Token).map Token.kind :=
  List.cons_subset_cons kind (List.nil_subset _)

theorem expectedIf (h : Takes kinds reports tokens later rest) (condition : Bool)
    (what : Expectation) (hwhat : what.quoted ⊆ tokens.map Token.kind) :
    Takes kinds reports tokens (if condition then later.expected what rest else later) rest := by
  cases condition with
  | false => exact h
  | true => exact h.expected what hwhat List.suffix_rfl List.suffix_rfl

theorem drop_punctuation {loc : Location}
    (h : Takes kinds reports tokens later (⟨kind, loc⟩ :: rest))
    (hkind : kind.isPunctuation = true) : Takes kinds reports tokens later rest := by
  have htrans := h.trans (.punctuation hkind loc (.refl later rest))
  rwa [List.append_nil] at htrans

end Takes

namespace Reading

variable (reports : Reports) (tokens : List Token)

theorem takes_overrides :
    Takes ((overrides reports tokens).value.flatMap Override.kinds) reports tokens
      (overrides reports tokens).reports (overrides reports tokens).rest := by
  fun_induction overrides reports tokens with
  | case1 | case2 | case5 => exact .refl _ _
  | case3 reports token name hkind kind hsome value loc rest tail ih =>
    obtain ⟨tokenKind, tokenLoc⟩ := token
    obtain rfl : tokenKind = .directive kind.word := by
      have hword : kind.word = name := by simpa using List.find?_some hsome
      rw [hword]
      exact hkind
    exact .cons rfl tokenLoc (.cons rfl loc ih)
  | case4 reports token name hkind kind hsome rest hint ih =>
    have hsuffix := List.suffix_cons token rest
    exact ((Takes.refl reports _).expected _ (List.nil_subset _) hsuffix hsuffix).trans ih

theorem takes_leaf (keyword : LeafKeyword) (loc keywordLoc : Location) :
    Takes (Node.significantOfAll (leaf keyword loc reports tokens).value.toList) reports
      (⟨.word keyword.word, keywordLoc⟩ :: tokens) (leaf keyword loc reports tokens).reports
      (leaf keyword loc reports tokens).rest := by
  unfold leaf
  split
  next s stringLoc rest =>
    have hstring {kinds : List Token.Kind} {later : Reports} {left : List Token}
        (h : Takes kinds reports rest later left) :
        Takes (.word keyword.word :: .string s :: kinds) reports
          (⟨.word keyword.word, keywordLoc⟩ :: ⟨.string s, stringLoc⟩ :: rest) later left :=
      .cons rfl keywordLoc (.cons rfl stringLoc h)
    cases keyword with
    | nid | sid | media =>
      rw [Option.toList_some, Node.significantOfAll_leaf]
      exact hstring (.refl reports rest)
    | rid =>
      rw [Option.toList_some, Node.significantOfAll_leaf]
      exact hstring (takes_overrides reports rest)
  · have hsuffix := List.suffix_cons ⟨.word keyword.word, keywordLoc⟩ tokens
    exact (Takes.refl reports _).expected _ (Takes.subset_map_kind_cons _ _ _) hsuffix hsuffix

theorem takes_keyword_leaf {token : Token} {word : String} {keyword : LeafKeyword}
    (hkind : token.kind = .word word) (hword : LeafKeyword.ofWord? word = some keyword) :
    Takes (Node.significantOfAll (leaf keyword token.location reports tokens).value.toList)
      reports (token :: tokens) (leaf keyword token.location reports tokens).reports
      (leaf keyword token.location reports tokens).rest := by
  obtain ⟨kind, loc⟩ := token
  obtain rfl : kind = .word keyword.word := by
    rw [word_of_leafKeyword hword]
    exact hkind
  exact takes_leaf reports tokens keyword loc loc

/-! ### Bodies -/

theorem takes_leaves :
    Takes (Node.significantOfAll (leaves reports tokens).value) reports tokens
      (leaves reports tokens).reports (leaves reports tokens).rest := by
  fun_induction leaves reports tokens with
  | case1 | case3 | case4 =>
    rw [Node.significantOfAll_nil]
    exact .refl _ _
  | case2 reports token rest word hkind keyword hword leaf hle tail ih =>
    rw [Node.significantOfAll_append]
    exact (takes_keyword_leaf reports rest hkind hword).trans ih

/-- The closing parenthesis of a span is passed over, or reported as missing. -/
theorem takes_contents_and_span :
    (∀ reports tokens,
      Takes (Node.significantOfAll (contents reports tokens).value) reports tokens
        (contents reports tokens).reports (contents reports tokens).rest) ∧
    ∀ style loc reports tokens,
      Takes (significant (span style loc reports tokens).value.kinds) reports
        (⟨.word style, loc⟩ :: tokens) (span style loc reports tokens).reports
        (span style loc reports tokens).rest := by
  apply contents_span_induction
  case nil =>
    intro reports
    rw [contents_nil, Node.significantOfAll_nil]
    exact .refl _ _
  case ofLeaf =>
    intro reports loc rest word keyword hword ih
    have hleaf := takes_leaf reports rest keyword loc loc
    rw [word_of_leafKeyword hword] at hleaf
    rw [contents_leaf reports loc rest hword]
    dsimp only
    rw [Node.significantOfAll_append]
    exact hleaf.trans ih
  case ofSpan =>
    intro reports loc rest style hleaf hspan hread ih
    rw [contents_span reports loc rest hleaf hspan]
    dsimp only
    rw [Node.significantOfAll_cons]
    exact hread.trans ih
  case other =>
    intro reports kind loc rest hother
    rw [contents_of_not_beginsContent reports rest hother, Node.significantOfAll_nil]
    exact .refl _ _
  case nested =>
    intro style loc reports tokens opened rest hopen ih
    have hleaves := takes_leaves reports tokens
    rw [hopen] at hleaves
    have hread := hleaves.trans (.punctuation rfl opened ih)
    rw [← Node.significantOfAll_append] at hread
    have hstyle := Takes.subset_map_kind_cons (.word style) loc tokens
    have hspan := (hread.cons rfl loc).expectedIf
      (contents (leaves reports tokens).reports rest).value.isEmpty (.nestedContent style) hstyle
    rw [span_of_openParen style loc hopen]
    dsimp only
    split
    · next closed rest' hclose =>
      rw [hclose] at hspan ⊢
      rw [Node.significant_span]
      exact hspan.drop_punctuation rfl
    · rw [Node.significant_span]
      exact hspan.expected _ (List.nil_subset _) List.suffix_rfl List.suffix_rfl
  case plain =>
    intro style loc reports tokens hne
    rw [span_of_not_openParen style loc hne, Node.significant_span]
    have hleaves : Takes _ _ (⟨.word style, loc⟩ :: tokens) _ _ :=
      .cons rfl loc (takes_leaves reports tokens)
    dsimp only
    split
    · exact hleaves.add (.emptySpan style) (Takes.subset_map_kind_cons _ _ _) loc
    · exact hleaves

theorem takes_paragraph (style : String) (loc keywordLoc : Location) :
    Takes (significant (paragraph style loc reports tokens).value.kinds) reports
      (⟨.word style, keywordLoc⟩ :: tokens) (paragraph style loc reports tokens).reports
      (paragraph style loc reports tokens).rest := by
  have hcontents : Takes _ _ (⟨.word style, keywordLoc⟩ :: tokens) _ _ :=
    .cons rfl keywordLoc (takes_contents_and_span.1 reports tokens)
  have hread := hcontents.expectedIf (contents reports tokens).value.isEmpty
    (.paragraphContent style) (Takes.subset_map_kind_cons _ _ _)
  unfold paragraph
  dsimp only
  split
  · next versionLoc rest hrest =>
    rw [hrest] at hread ⊢
    rw [Node.significant_paragraph, if_pos rfl]
    exact hread.trans (.cons rfl versionLoc (.refl _ _))
  · rw [Node.significant_paragraph, if_neg Bool.false_ne_true, List.append_nil]
    exact hread

theorem takes_body :
    Takes (Node.significantOfAll (body reports tokens).value) reports tokens
      (body reports tokens).reports (body reports tokens).rest := by
  fun_induction body reports tokens with
  | case1 reports =>
    exact (Takes.refl reports []).expected _ (List.nil_subset _) List.suffix_rfl List.suffix_rfl
  | case2 reports token rest hclose =>
    obtain ⟨kind, loc⟩ := token
    obtain rfl : kind = .closeBrace := hclose
    rw [Node.significantOfAll_nil]
    exact .punctuation rfl loc (.refl _ _)
  | case3 reports token rest hclose style hstyle paragraph hle tail ih =>
    obtain ⟨kind, loc⟩ := token
    obtain rfl : kind = .word style := (paragraphStyle?_eq_some_iff.mp hstyle).1
    rw [Node.significantOfAll_cons]
    exact (takes_paragraph reports rest style loc loc).trans ih
  | case4 reports token rest hclose hstyle hle ih =>
    have hskipped := (List.dropWhile_suffix fun t => !isBodyToken t).trans
      (List.suffix_cons token rest)
    exact ((Takes.refl reports _).expected _ (List.nil_subset _) List.suffix_rfl hskipped).trans ih

/-! ### Page blocks -/

theorem takes_references :
    Takes (Node.significantOfAll (references reports tokens).value) reports tokens
      (references reports tokens).reports (references reports tokens).rest := by
  fun_induction references reports tokens with
  | case1 | case3 | case4 | case5 =>
    rw [Node.significantOfAll_nil]
    exact .refl _ _
  | case2 reports token rest word hkind keyword hword hreference leaf hle tail ih =>
    rw [Node.significantOfAll_append]
    exact (takes_keyword_leaf reports rest hkind hword).trans ih

theorem takes_library :
    Takes (Node.Group.lookup (library reports tokens).value).closing reports tokens
      (library reports tokens).reports (library reports tokens).rest := by
  fun_cases library reports tokens with
  | case1 loc n loc' rest => exact .cons rfl loc (.cons rfl loc' (.refl _ _))
  | case2 loc rest hint =>
    have hsuffix := List.suffix_cons ⟨.word "lang", loc⟩ rest
    exact (Takes.refl reports _).expected _ (List.nil_subset _) hsuffix hsuffix
  | case3 => exact .refl _ _

theorem takes_lookup (loc keywordLoc : Location) :
    Takes (significant (lookup loc reports tokens).value.kinds) reports
      (⟨.directive "Lookup", keywordLoc⟩ :: tokens) (lookup loc reports tokens).reports
      (lookup loc reports tokens).rest := by
  have hread := (takes_references reports tokens).trans (takes_library _ _)
  rw [lookup, Node.significant_lookup]
  exact .cons rfl keywordLoc hread

theorem takes_slotItems :
    Takes (Node.significantOfAll (slotItems reports tokens).value) reports tokens
      (slotItems reports tokens).reports (slotItems reports tokens).rest := by
  fun_induction slotItems reports tokens with
  | case1 | case5 | case6 =>
    rw [Node.significantOfAll_nil]
    exact .refl _ _
  | case2 reports token rest lookup hle tail hkind ih =>
    obtain ⟨kind, loc⟩ := token
    obtain rfl : kind = .directive "Lookup" := hkind
    rw [Node.significantOfAll_cons]
    exact (takes_lookup reports rest loc loc).trans ih
  | case3 reports token rest name hkind hname hle tail ih =>
    obtain ⟨kind, loc⟩ := token
    obtain rfl : kind = .directive name := hkind
    rw [Node.significantOfAll_directive]
    exact .cons rfl loc ih
  | case4 reports token rest leaf hle tail hkind ih =>
    obtain ⟨kind, loc⟩ := token
    obtain rfl : kind = .word LeafKeyword.nid.word := hkind
    rw [Node.significantOfAll_append]
    exact (takes_leaf reports rest .nid loc loc).trans ih

theorem takes_position (slot : String) (loc keywordLoc : Location) :
    Takes (significant (position slot loc reports tokens).value.kinds) reports
      (⟨.word slot, keywordLoc⟩ :: tokens) (position slot loc reports tokens).reports
      (position slot loc reports tokens).rest := by
  rw [position, Node.significant_position]
  have hitems : Takes _ _ (⟨.word slot, keywordLoc⟩ :: tokens) _ _ :=
    .cons rfl keywordLoc (takes_slotItems reports tokens)
  exact hitems.expectedIf _ (.slotItem slot) (Takes.subset_map_kind_cons _ _ _)

theorem takes_positions :
    Takes (Node.significantOfAll (positions reports tokens).value) reports tokens
      (positions reports tokens).reports (positions reports tokens).rest := by
  fun_induction positions reports tokens with
  | case1 | case2 | case4 =>
    rw [Node.significantOfAll_nil]
    exact .refl _ _
  | case3 reports token rest slot hkind hnext position hle tail ih =>
    obtain ⟨kind, loc⟩ := token
    obtain rfl : kind = .word slot := hkind
    rw [Node.significantOfAll_cons]
    exact (takes_position reports rest slot loc loc).trans ih

theorem takes_pageBlock (edge : PageEdge) (parity : Parity)
    (loc keywordLoc equalsLoc : Location) :
    Takes (significant (pageBlock edge parity loc reports tokens).value.kinds) reports
      (⟨.word (pageBlockWord edge parity), keywordLoc⟩ :: ⟨.equals, equalsLoc⟩ :: tokens)
      (pageBlock edge parity loc reports tokens).reports
      (pageBlock edge parity loc reports tokens).rest := by
  have hread := (takes_positions reports tokens).expectedIf
    (positions reports tokens).value.isEmpty .slot (List.nil_subset _)
  rw [pageBlock, Node.significant_pageBlock]
  exact .cons rfl keywordLoc (.punctuation rfl equalsLoc hread)

/-! ### Items -/

theorem takes_property (name : String) (loc keywordLoc equalsLoc : Location) :
    Takes (Node.significantOfAll (property name loc reports tokens).value.toList) reports
      (⟨.word name, keywordLoc⟩ :: ⟨.equals, equalsLoc⟩ :: tokens)
      (property name loc reports tokens).reports (property name loc reports tokens).rest := by
  unfold property
  split
  · next s valueLoc rest =>
    rw [Option.toList_some, Node.significantOfAll_property]
    exact .cons rfl keywordLoc (.punctuation rfl equalsLoc (.cons rfl valueLoc (.refl _ _)))
  · next n valueLoc rest =>
    rw [Option.toList_some, Node.significantOfAll_property]
    exact .cons rfl keywordLoc (.punctuation rfl equalsLoc (.cons rfl valueLoc (.refl _ _)))
  · have hsuffix : tokens <:+ ⟨.word name, keywordLoc⟩ :: ⟨.equals, equalsLoc⟩ :: tokens :=
      (List.suffix_cons _ tokens).trans (List.suffix_cons _ _)
    exact (Takes.refl reports _).expected _ (List.nil_subset _) hsuffix hsuffix

theorem takes_items :
    Takes (Node.significantOfAll (items reports tokens).value) reports tokens
      (items reports tokens).reports (items reports tokens).rest := by
  fun_induction items reports tokens with
  | case1 =>
    rw [Node.significantOfAll_nil]
    exact .refl _ _
  | case2 reports loc rest body hle tail ih =>
    rw [Node.significantOfAll_append]
    exact .punctuation rfl loc ((takes_body reports rest).trans ih)
  | case3 reports word loc loc' rest edge parity hword block hle tail ih =>
    have hblock := takes_pageBlock reports rest edge parity loc loc loc'
    rw [pageBlockWord_of_pageBlockOfWord? hword] at hblock
    rw [Node.significantOfAll_cons]
    exact hblock.trans ih
  | case4 reports word loc loc' rest hword property hle tail ih =>
    rw [Node.significantOfAll_append]
    exact (takes_property reports rest word loc loc loc').trans ih
  | case5 reports token rest hopen hassignment hle ih =>
    have hskipped := (passesOver_skipToItem rest).suffix.trans (List.suffix_cons token rest)
    exact ((Takes.refl reports _).expected _ (List.nil_subset _) List.suffix_rfl hskipped).trans ih

end Reading

end Typikon
