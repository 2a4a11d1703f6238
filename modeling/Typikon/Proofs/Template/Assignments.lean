import Typikon.Proofs.Template.Placement
import Typikon.Proofs.Template.Recovery
import Typikon.Proofs.Template.Reporting

/-!
Recovery between items. A word before an equals sign that stands outside all bodies begins an item,
whatever is wrong around it: no production takes such a word, and what is passed over as fitting no
item ends before it. Only the reserved words can be taken, by leaves and lookups of page blocks. The
item is a page block or a property, or else the value of the property is reported as missing.
-/

namespace Typikon

open Node (preorderOfAll)

/-- A word before an equals sign, and the tokens after the sign. -/
structure Assignment where
  word : String
  location : Location
  value : List Token
deriving DecidableEq

namespace Assignment

/-- What an assignment stands for: a page block if its word is that of one, and otherwise a property
if a string or an integer is its value. -/
def head? (a : Assignment) : Option Node.Head :=
  match pageBlockOfWord? a.word with
  | some (edge, parity) => some (.group (.pageBlock edge parity))
  | none =>
    match a.value.head?.map Token.kind with
    | some (.string s) => some (.atom (.property a.word (.string s)))
    | some (.integer n) => some (.atom (.property a.word (.integer n)))
    | _ => none

/-- The syntax error that no value follows the equals sign, in a text with the given end. -/
def missingValue (a : Assignment) (stop : Location) : SyntaxError :=
  ⟨.ofNext .propertyValue (a.value.head?.map Token.kind),
    (a.value.head?.map Token.location).getD stop⟩

/-- The assignment that tokens begin with. -/
def first? : List Token → Option Assignment
  | ⟨.word word, loc⟩ :: ⟨.equals, _⟩ :: rest => some ⟨word, loc, rest⟩
  | _ => none

/-- The assignments outside all bodies, each of which goes from an opening brace outside all others
to the first closing one. -/
def ofTokens : List Token → List Assignment
  | [] => []
  | token :: rest =>
    if token.kind = .openBrace then
      have := Reading.length_afterBody_le rest
      ofTokens (Reading.afterBody rest)
    else (first? (token :: rest)).toList ++ ofTokens rest
termination_by tokens => tokens.length
decreasing_by
  · exact Nat.lt_succ_of_le this
  · exact Nat.lt_succ_self _

theorem first?_eq_none {tokens : List Token}
    (h : ∀ word loc loc' rest, tokens ≠ ⟨.word word, loc⟩ :: ⟨.equals, loc'⟩ :: rest) :
    first? tokens = none := by
  unfold first?
  split
  · next word loc loc' rest => exact absurd rfl (h word loc loc' rest)
  · rfl

theorem first?_eq_none_of_ne_word {token : Token} (h : ∀ word, token.kind ≠ .word word)
    (rest : List Token) : first? (token :: rest) = none := by
  refine first?_eq_none fun word loc loc' rest' heq => ?_
  cases heq
  exact h word rfl

theorem first?_eq_none_of_not_startsAssignment {tokens : List Token}
    (h : ¬startsAssignment tokens = true) : first? tokens = none := by
  refine first?_eq_none fun word loc loc' rest heq => ?_
  cases heq
  exact h rfl

theorem word_of_mem_first? {token : Token} {word : String} {rest : List Token} {a : Assignment}
    (hkind : token.kind = .word word) (ha : a ∈ first? (token :: rest)) : a.word = word := by
  unfold first? at ha
  split at ha
  · next word' loc loc' rest' heq =>
    cases heq
    cases ha
    exact Token.Kind.word.inj hkind
  · cases ha

theorem ofTokens_of_openBrace {token : Token} (h : token.kind = .openBrace) (rest : List Token) :
    ofTokens (token :: rest) = ofTokens (Reading.afterBody rest) := by
  rw [ofTokens, if_pos h]

theorem ofTokens_of_ne {token : Token} (h : token.kind ≠ .openBrace) (rest : List Token) :
    ofTokens (token :: rest) = (first? (token :: rest)).toList ++ ofTokens rest := by
  rw [ofTokens, if_neg h]

theorem ofTokens_assignment (word : String) (loc loc' : Location) (rest : List Token) :
    ofTokens (⟨.word word, loc⟩ :: ⟨.equals, loc'⟩ :: rest) =
      ⟨word, loc, rest⟩ :: ofTokens rest := by
  have hequals : first? (⟨.equals, loc'⟩ :: rest) = none :=
    first?_eq_none_of_ne_word (fun _ => Token.Kind.noConfusion) rest
  rw [ofTokens_of_ne Token.Kind.noConfusion, ofTokens_of_ne Token.Kind.noConfusion, hequals]
  rfl

end Assignment

/-! ### What is passed over -/

/-- Tokens are passed over none of which opens a body or begins an assignment, unless that of a
reserved word. -/
inductive SkipsNoItem : List Token → List Token → Prop
  | refl (tokens : List Token) : SkipsNoItem tokens tokens
  | cons {token : Token} {tokens rest : List Token} (hopen : token.IsOutside)
    (hword : ∀ a ∈ Assignment.first? (token :: tokens), IsReserved a.word)
    (h : SkipsNoItem tokens rest) : SkipsNoItem (token :: tokens) rest

namespace SkipsNoItem

variable {token : Token} {tokens left rest : List Token} {a : Assignment}

theorem trans (h : SkipsNoItem tokens left) (h' : SkipsNoItem left rest) :
    SkipsNoItem tokens rest := by
  induction h with
  | refl _ => exact h'
  | cons hopen hword _ ih => exact .cons hopen hword (ih h')

theorem cons_of_ne_word (hopen : token.IsOutside) (hkind : ∀ word, token.kind ≠ .word word)
    (h : SkipsNoItem tokens rest) : SkipsNoItem (token :: tokens) rest := by
  refine .cons hopen ?_ h
  rw [Assignment.first?_eq_none_of_ne_word hkind]
  exact fun a ha => absurd ha (Option.not_mem_none a)

theorem cons_word {word : String} (hkind : token.kind = .word word) (hword : IsReserved word)
    (h : SkipsNoItem tokens rest) : SkipsNoItem (token :: tokens) rest := by
  refine .cons (Token.isOutside_word hkind) ?_ h
  intro a ha
  rwa [Assignment.word_of_mem_first? hkind ha]

theorem of_passesOver (h : PassesOver Token.IsOfLeaf tokens rest) : SkipsNoItem tokens rest := by
  obtain ⟨taken, rfl, htaken⟩ := h
  induction taken with
  | nil => exact .refl rest
  | cons token taken ih =>
    rw [List.forall_mem_cons] at htaken
    obtain ⟨htoken, htaken⟩ := htaken
    refine cons_of_ne_word htoken.isOutside ?_ (ih htaken)
    rcases htoken with ⟨s, h⟩ | ⟨n, h⟩ | ⟨name, h⟩ <;> simp [h]

theorem mem_ofTokens (h : SkipsNoItem tokens rest) (ha : a ∈ Assignment.ofTokens tokens)
    (hword : ¬IsReserved a.word) : a ∈ Assignment.ofTokens rest := by
  induction h with
  | refl _ => exact ha
  | cons hopen hreserved _ ih =>
    rw [Assignment.ofTokens_of_ne hopen, List.mem_append] at ha
    rcases ha with ha | ha
    · exact absurd (hreserved a (Option.mem_toList.mp ha)) hword
    · exact ih ha

theorem ofTokens_subset (h : SkipsNoItem tokens rest) :
    Assignment.ofTokens rest ⊆ Assignment.ofTokens tokens := by
  induction h with
  | refl _ => exact fun _ ha => ha
  | cons hopen _ _ ih =>
    rw [Assignment.ofTokens_of_ne hopen]
    exact fun a ha => List.mem_append_right _ (ih ha)

end SkipsNoItem

namespace Reading

variable (reports : Reports) (tokens : List Token)

theorem isReserved_leafKeyword {keyword : LeafKeyword} (h : keyword ≠ .media) :
    IsReserved keyword.word := by
  cases keyword with
  | media => exact absurd rfl h
  | nid | rid | sid => decide

theorem skipsNoItem_leaf (keyword : LeafKeyword) (loc : Location) :
    SkipsNoItem tokens (leaf keyword loc reports tokens).rest :=
  .of_passesOver (passesOver_leaf reports tokens keyword loc)

theorem skipsNoItem_references : SkipsNoItem tokens (references reports tokens).rest := by
  fun_induction references reports tokens with
  | case1 | case3 | case4 | case5 => exact .refl _
  | case2 reports token rest word hkind keyword hword hreference leaf hle tail ih =>
    have hreserved : IsReserved word := by
      rw [← word_of_leafKeyword hword]
      refine isReserved_leafKeyword ?_
      rintro rfl
      simp at hreference
    have hleaf := skipsNoItem_leaf reports rest keyword token.location
    exact .cons_word hkind hreserved (hleaf.trans ih)

theorem skipsNoItem_library : SkipsNoItem tokens (library reports tokens).rest := by
  have hreserved : IsReserved "lang" := by decide
  fun_cases library reports tokens with
  | case1 loc n loc' rest =>
    have hinteger : PassesOver Token.IsOfLeaf (⟨.integer n, loc'⟩ :: rest) rest :=
      .cons (.inr (.inl ⟨n, rfl⟩)) (.refl _ rest)
    exact .cons_word rfl hreserved (.of_passesOver hinteger)
  | case2 loc rest hint => exact .cons_word rfl hreserved (.refl rest)
  | case3 => exact .refl _

theorem skipsNoItem_lookup (loc : Location) :
    SkipsNoItem tokens (lookup loc reports tokens).rest :=
  (skipsNoItem_references reports tokens).trans (skipsNoItem_library _ _)

theorem skipsNoItem_slotItems : SkipsNoItem tokens (slotItems reports tokens).rest := by
  fun_induction slotItems reports tokens with
  | case1 | case5 | case6 => exact .refl _
  | case2 reports token rest lookup hle tail hkind ih =>
    refine .cons_of_ne_word (Token.isOutside_directive hkind) (by simp [hkind]) ?_
    exact (skipsNoItem_lookup reports rest token.location).trans ih
  | case3 reports token rest name hkind hname hle tail ih =>
    exact .cons_of_ne_word (Token.isOutside_directive hkind) (by simp [hkind]) ih
  | case4 reports token rest leaf hle tail hkind ih =>
    have hreserved : IsReserved LeafKeyword.nid.word := by decide
    exact .cons_word hkind hreserved ((skipsNoItem_leaf reports rest .nid token.location).trans ih)

/-- A slot has no equals sign behind it. -/
theorem skipsNoItem_positions : SkipsNoItem tokens (positions reports tokens).rest := by
  fun_induction positions reports tokens with
  | case1 | case2 | case4 => exact .refl _
  | case3 reports token rest slot hkind hnext position hle tail ih =>
    refine .cons (Token.isOutside_word hkind) ?_ ((skipsNoItem_slotItems reports rest).trans ih)
    rw [Assignment.first?_eq_none_of_not_startsAssignment hnext]
    exact fun a ha => absurd ha (Option.not_mem_none a)

theorem skipsNoItem_property (name : String) (loc : Location) :
    SkipsNoItem tokens (property name loc reports tokens).rest := by
  unfold property
  split
  · next s loc' rest => exact .of_passesOver (.cons (.inl ⟨s, rfl⟩) (.refl _ rest))
  · next n loc' rest => exact .of_passesOver (.cons (.inr (.inl ⟨n, rfl⟩)) (.refl _ rest))
  · exact .refl _

theorem skipsNoItem_skipToItem : SkipsNoItem tokens (skipToItem tokens) := by
  fun_induction skipToItem tokens with
  | case1 | case2 => exact .refl _
  | case3 token rest hitem ih =>
    obtain ⟨hopen, hassignment⟩ := not_or.mp hitem
    refine .cons hopen ?_ ih
    rw [Assignment.first?_eq_none_of_not_startsAssignment hassignment]
    exact fun a ha => absurd ha (Option.not_mem_none a)

end Reading

/-! ### What is read -/

namespace Assignment

/-- An assignment has been read: there is a node of what it stands for, or else its value is
reported as missing. -/
structure IsRead (a : Assignment) (nodes : List Node) (reports : Reports) : Prop where
  node : ∀ head, a.head? = some head →
    ∃ node ∈ nodes, node.location = a.location ∧ node.head = head
  missing : a.head? = none → a.missingValue reports.stop ∈ reports.errors

variable {a : Assignment} {nodes others : List Node} {reports later : Reports}
  {tokens rest : List Token}

theorem IsRead.mono {P Q : Reports → List Token → Prop} (h : a.IsRead nodes reports)
    (hnodes : nodes ⊆ others) (hleads : Leads P Q reports tokens later rest) :
    a.IsRead others later where
  node head hhead := by
    obtain ⟨node, hmem, hnode⟩ := h.node head hhead
    exact ⟨node, hnodes hmem, hnode⟩
  missing hhead := by
    obtain ⟨new, hnew, -⟩ := hleads.errors
    rw [hnew, hleads.stop]
    exact List.mem_append_right new (h.missing hhead)

/-- A node of what an assignment stands for is all of the reading of it. -/
theorem isRead_singleton {head : Node.Head} (hhead : a.head? = some head) {node : Node}
    (hlocation : node.location = a.location) (hnode : node.head = head) (reports : Reports) :
    a.IsRead [node] reports where
  node other hother := by
    obtain rfl := Option.some.inj (hhead.symm.trans hother)
    exact ⟨node, List.mem_singleton_self node, hlocation, hnode⟩
  missing hnone := by rw [hnone] at hhead; cases hhead

theorem head?_pageBlock {word : String} {edge : PageEdge} {parity : Parity}
    (hword : pageBlockOfWord? word = some (edge, parity)) (loc : Location) (reports : Reports)
    (tokens : List Token) :
    (Assignment.mk word loc tokens).head? =
      some (Reading.pageBlock edge parity loc reports tokens).value.head := by
  simp [head?, hword, Reading.pageBlock, Node.head]

/-- A missing value is reported, for nothing has been reported at its place before. -/
theorem isRead_property {word : String} (hword : pageBlockOfWord? word = none) (loc : Location)
    (hlast : reports.last ≠ some (reports.nextLocation tokens)) :
    (Assignment.mk word loc tokens).IsRead
      (Reading.property word loc reports tokens).value.toList
      (Reading.property word loc reports tokens).reports := by
  unfold Reading.property
  split
  · exact isRead_singleton (by simp [head?, hword, Node.head]) rfl rfl reports
  · exact isRead_singleton (by simp [head?, hword, Node.head]) rfl rfl reports
  · next hstring hinteger =>
    have hhead : (Assignment.mk word loc tokens).head? = none := by
      simp only [head?, hword]
      split
      · next s hvalue =>
        obtain ⟨⟨kind, loc'⟩, htoken, rfl⟩ := Option.map_eq_some_iff.mp hvalue
        obtain ⟨rest, rfl⟩ := List.head?_eq_some_iff.mp htoken
        exact absurd rfl (hstring s loc' rest)
      · next n hvalue =>
        obtain ⟨⟨kind, loc'⟩, htoken, rfl⟩ := Option.map_eq_some_iff.mp hvalue
        obtain ⟨rest, rfl⟩ := List.head?_eq_some_iff.mp htoken
        exact absurd rfl (hinteger n loc' rest)
      · rfl
    refine ⟨fun head hsome => ?_, fun _ => ?_⟩
    · rw [hhead] at hsome
      cases hsome
    · rw [Reports.expected_of_last_ne hlast]
      exact List.mem_cons_self

/-- An assignment that stands outside all bodies is read, if its word is not reserved. -/
theorem isRead_items (hbehind : reports.IsBehind tokens) (ha : a ∈ ofTokens tokens)
    (hword : ¬IsReserved a.word) :
    a.IsRead (Reading.items reports tokens).value (Reading.items reports tokens).reports := by
  fun_induction Reading.items reports tokens with
  | case1 => simp [ofTokens] at ha
  | case2 reports loc rest body hle tail ih =>
    rw [ofTokens_of_openBrace rfl, ← (Reading.body_spec reports rest).2] at ha
    have hread := ((Reading.leads_body reports rest).holds hbehind.of_cons.toIsBehind)
    exact (ih hread ha).mono (List.subset_append_right _ _) (.refl Reports.IsBehind _ [])
  | case3 reports word loc loc' rest edge parity hblock block hle tail ih =>
    have hleads := Reading.leads_pageBlock reports rest edge parity loc
    have hread := hleads.holds (hbehind.of_suffix (Reading.suffix_assignment _ _ rest))
    rw [ofTokens_assignment, List.mem_cons] at ha
    rcases ha with rfl | ha
    · have hhead := head?_pageBlock hblock loc reports rest
      refine (isRead_singleton hhead rfl rfl block.reports).mono ?_
        (Reading.leads_items block.reports block.rest)
      exact List.cons_subset_cons _ (List.nil_subset _)
    · have hrest := (Reading.skipsNoItem_positions reports rest).mem_ofTokens ha hword
      exact (ih hread hrest).mono (List.subset_cons_self _ _) (.refl Reports.IsBehind _ [])
  | case4 reports word loc loc' rest hblock property hle tail ih =>
    have hleads := Reading.leads_property reports rest word loc
    have hread := hleads.holds (hbehind.of_suffix (Reading.suffix_assignment _ _ rest))
    rw [ofTokens_assignment, List.mem_cons] at ha
    rcases ha with rfl | ha
    · refine (isRead_property hblock loc ?_).mono (List.subset_append_left _ _)
        (Reading.leads_items property.reports property.rest)
      exact hbehind.of_cons.toIsBehind.last_ne_of_cons
    · have hrest := (Reading.skipsNoItem_property reports rest word loc).mem_ofTokens ha hword
      exact (ih hread hrest).mono (List.subset_append_right _ _) (.refl Reports.IsBehind _ [])
  | case5 reports token rest hopen hassignment hle ih =>
    -- The error at this token lies behind the next one, so it hides no missing value there.
    have hread := (hbehind.expected .item).of_cons.toIsBehind
    have hne : token.kind ≠ .openBrace := fun h => hopen token.location (by rw [← h])
    have hfirst : first? (token :: rest) = none := by
      refine first?_eq_none fun word loc loc' rest' heq => ?_
      cases heq
      exact hassignment word loc loc' rest' rfl rfl
    rw [ofTokens_of_ne hne, hfirst] at ha
    have hrest := (Reading.skipsNoItem_skipToItem rest).mem_ofTokens ha hword
    exact ih (hread.of_suffix (Reading.passesOver_skipToItem rest).suffix) hrest

/-- What is no paragraph comes from an assignment outside all bodies. -/
theorem exists_of_mem_items {node : Node} (hnode : node ∈ (Reading.items reports tokens).value)
    (hparagraph : node.paragraphHead? = none) :
    ∃ a ∈ ofTokens tokens, a.location = node.location ∧ a.head? = some node.head := by
  fun_induction Reading.items reports tokens with
  | case1 => cases hnode
  | case2 reports loc rest body hle tail ih =>
    rw [ofTokens_of_openBrace rfl, ← (Reading.body_spec reports rest).2]
    rcases List.mem_append.mp hnode with hnode | hnode
    · rw [(Reading.body_spec reports rest).1] at hnode
      obtain ⟨s, -, rfl⟩ := List.mem_map.mp hnode
      rw [s.paragraphHead?_node] at hparagraph
      cases hparagraph
    · exact ih hnode
  | case3 reports word loc loc' rest edge parity hblock block hle tail ih =>
    rw [ofTokens_assignment]
    rcases List.mem_cons.mp hnode with rfl | hnode
    · exact ⟨_, List.mem_cons_self, rfl, head?_pageBlock hblock loc reports rest⟩
    · obtain ⟨a, ha, hread⟩ := ih hnode
      have hmem := (Reading.skipsNoItem_positions reports rest).ofTokens_subset ha
      exact ⟨a, List.mem_cons_of_mem _ hmem, hread⟩
  | case4 reports word loc loc' rest hblock property hle tail ih =>
    rw [ofTokens_assignment]
    rcases List.mem_append.mp hnode with hnode | hnode
    · refine ⟨_, List.mem_cons_self, ?_⟩
      unfold property Reading.property at hnode
      split at hnode
      · obtain rfl := List.mem_singleton.mp hnode
        simp [head?, hblock, Node.location, Node.head]
      · obtain rfl := List.mem_singleton.mp hnode
        simp [head?, hblock, Node.location, Node.head]
      · cases hnode
    · obtain ⟨a, ha, hread⟩ := ih hnode
      have hmem := (Reading.skipsNoItem_property reports rest word loc).ofTokens_subset ha
      exact ⟨a, List.mem_cons_of_mem _ hmem, hread⟩
  | case5 reports token rest hopen hassignment hle ih =>
    obtain ⟨a, ha, hread⟩ := ih hnode
    have hne : token.kind ≠ .openBrace := fun h => hopen token.location (by rw [← h])
    refine ⟨a, ?_, hread⟩
    rw [ofTokens_of_ne hne]
    exact List.mem_append_right _ ((Reading.skipsNoItem_skipToItem rest).ofTokens_subset ha)

end Assignment

/-! ### Properties and page blocks -/

namespace Node

/-- The nodes that an assignment can stand for. -/
def Head.isAssigned : Head → Bool
  | .atom (.property _ _) => true
  | .group (.pageBlock _ _) => true
  | _ => false

theorem Group.Admits.not_isAssigned {g : Group} {head : Head} (h : g.Admits head)
    (hg : g ≠ .template) : head.isAssigned = false := by
  cases h with
  | property | pageBlock | paragraph => exact absurd rfl hg
  | position | directive | lookup | literal | absolute | relative => rfl
  | leafOfParagraph | spanOfParagraph | leafOfSpan | spanOfSpan => rfl

theorem Group.Admits.ne_group_template {g : Group} {head : Head} (h : g.Admits head) :
    head ≠ .group .template := by
  rintro rfl
  cases h

theorem preorder_eq_cons (node : Node) :
    node.preorder = (node.location, node.head) :: preorderOfAll node.children := by
  cases node with
  | atom loc a =>
    rw [preorder, children, preorderOfAll_nil]
    rfl
  | group loc g children =>
    rw [preorder]
    rfl

theorem mem_preorderOfAll {node : Node} {nodes : List Node} (h : node ∈ nodes) :
    (node.location, node.head) ∈ preorderOfAll nodes := by
  obtain ⟨before, after, rfl⟩ := List.append_of_mem h
  rw [preorderOfAll_append, preorderOfAll, preorder_eq_cons]
  exact List.mem_append_right _ List.mem_cons_self

mutual

theorem not_isAssigned_children :
    (node : Node) → node.Nests → node.head ≠ .group .template →
      ∀ entry ∈ preorderOfAll node.children, entry.2.isAssigned = false
  | .atom _ _, _, _ => by simp [children]
  | .group loc g nodes, hnests, hne =>
    not_isAssigned_preorderOfAll nodes ((nests_group loc g nodes).mp hnests)
      fun hg => hne (congrArg Head.group hg)

/-- Properties and page blocks stand nowhere else than right inside a template. -/
theorem not_isAssigned_preorderOfAll {g : Group} :
    (nodes : List Node) → NestIn g nodes → g ≠ .template →
      ∀ entry ∈ preorderOfAll nodes, entry.2.isAssigned = false
  | [], _, _ => by simp
  | node :: nodes, hnest, hg => by
    obtain ⟨hadmits, hnests, hnest⟩ := (nestIn_cons g node nodes).mp hnest
    rw [preorderOfAll, preorder_eq_cons, List.cons_append, List.forall_mem_cons,
      List.forall_mem_append]
    refine ⟨hadmits.not_isAssigned hg, ?_, not_isAssigned_preorderOfAll nodes hnest hg⟩
    exact not_isAssigned_children node hnests hadmits.ne_group_template

end

theorem paragraphHead?_of_isAssigned {node : Node} (h : node.head.isAssigned = true) :
    node.paragraphHead? = none := by
  unfold paragraphHead?
  split
  · cases h
  · rfl

/-- Each is right inside the template, and so one of its items. -/
theorem exists_of_isAssigned {nodes : List Node} (hnest : NestIn .template nodes)
    {entry : Location × Head} (hentry : entry ∈ preorderOfAll nodes)
    (hassigned : entry.2.isAssigned = true) :
    ∃ node ∈ nodes, node.location = entry.1 ∧ node.head = entry.2 := by
  induction nodes with
  | nil => simp at hentry
  | cons node nodes ih =>
    obtain ⟨hadmits, hnests, hnest⟩ := (nestIn_cons .template node nodes).mp hnest
    rw [preorderOfAll, preorder_eq_cons, List.cons_append, List.mem_cons, List.mem_append] at hentry
    rcases hentry with rfl | hchild | hentry
    · exact ⟨node, List.mem_cons_self, rfl, rfl⟩
    · have hnot := not_isAssigned_children node hnests hadmits.ne_group_template entry hchild
      exact absurd hassigned (Bool.eq_false_iff.mp hnot)
    · obtain ⟨other, hmem, heq⟩ := ih hnest hentry
      exact ⟨other, List.mem_cons_of_mem _ hmem, heq⟩

/-- A node of growing locations is the only one at its own. -/
theorem filter_location_eq {entries : List (Location × Head)}
    (hascending : entries.Pairwise fun first second => first.1 < second.1)
    {entry : Location × Head} (hentry : entry ∈ entries) :
    entries.filter (fun other => other.1 = entry.1) = [entry] := by
  obtain ⟨before, after, rfl⟩ := List.append_of_mem hentry
  obtain ⟨-, hafter, hbefore⟩ := List.pairwise_append.mp hascending
  have hbefore : before.filter (fun other => other.1 = entry.1) = [] := by
    rw [List.filter_eq_nil_iff]
    intro other hother
    have hlt := hbefore other hother entry List.mem_cons_self
    simpa using hlt.ne
  have hafter : after.filter (fun other => other.1 = entry.1) = [] := by
    rw [List.filter_eq_nil_iff]
    intro other hother
    have hlt := List.rel_of_pairwise_cons hafter hother
    simpa using hlt.ne'
  rw [List.filter_append, List.filter_cons_of_pos (by simp), hbefore, hafter, List.nil_append]

end Node

namespace Template

/-- Garbage around its items hides none of them. Each assignment outside all bodies, unless that of
a reserved word, has exactly one node, which is the page block or property that it stands for, or
else what follows its equals sign is reported as no value. The template has no other properties and
page blocks than those of assignments outside all bodies, and they come in the order of the text. -/
theorem assignments_ofText (text : String) :
    let scan := Scan.ofText text
    let entries := preorderOfAll (ofText text).items
    (∀ a ∈ Assignment.ofTokens scan.tokens, ¬IsReserved a.word →
      (∀ head, a.head? = some head →
        entries.filter (fun entry => entry.1 = a.location) = [(a.location, head)]) ∧
      (a.head? = none → a.missingValue scan.stop ∈ (ofText text).errors)) ∧
    (∀ entry ∈ entries, entry.2.isAssigned = true →
      ∃ a ∈ Assignment.ofTokens scan.tokens,
        a.location = entry.1 ∧ a.head? = some entry.2) ∧
    (entries.filter fun entry => entry.2.isAssigned).Pairwise fun first second =>
      first.1 < second.1 := by
  intro scan entries
  have hascending : entries.Pairwise fun first second => first.1 < second.1 :=
    pairwise_lt_preorderOfAll_ofText text
  have hbehind : (Reports.none scan.stop).IsBehind scan.tokens :=
    Reports.isBehind_none (Scan.pairwise_lt_locations_ofText text)
  refine ⟨fun a ha hword => ?_, fun entry hentry hassigned => ?_, hascending.filter _⟩
  · have hread := Assignment.isRead_items hbehind ha hword
    refine ⟨fun head hhead => ?_, fun hhead => ?_⟩
    · obtain ⟨node, hmem, hlocation, rfl⟩ := hread.node head hhead
      rw [← hlocation]
      exact Node.filter_location_eq hascending (Node.mem_preorderOfAll hmem)
    · have hmissing := hread.missing hhead
      rw [(leads_ofText text).stop] at hmissing
      exact List.mem_reverse.mpr hmissing
  · obtain ⟨node, hmem, hlocation, hhead⟩ :=
      Node.exists_of_isAssigned (places_ofText text).nestIn hentry hassigned
    -- Only the paragraphs among the items come from bodies.
    have hparagraph := Node.paragraphHead?_of_isAssigned (hhead.symm ▸ hassigned)
    obtain ⟨a, ha, haloc, hahead⟩ := Assignment.exists_of_mem_items hmem hparagraph
    exact ⟨a, ha, haloc.trans hlocation, hahead.trans (congrArg some hhead)⟩

/-- A text with garbage before and after a property that has no value. -/
def garbledText : String := ") Month = @Date PageHeader = x Day = 3"

theorem assignments_garbledText :
    let entries := preorderOfAll (ofText garbledText).items
    let day : Assignment := ⟨"Day", ⟨1, 32⟩, [⟨.integer 3, ⟨1, 38⟩⟩]⟩
    day ∈ Assignment.ofTokens (Scan.ofText garbledText).tokens ∧ ¬IsReserved day.word ∧
      entries.filter (fun entry => entry.1 = day.location) =
        [(day.location, .atom (.property "Day" (.integer 3)))] := by
  intro entries day
  have hmem : day ∈ Assignment.ofTokens (Scan.ofText garbledText).tokens := by decide +kernel
  have hword : ¬IsReserved day.word := by decide
  exact ⟨hmem, hword, ((assignments_ofText garbledText).1 day hmem hword).1 _ rfl⟩

end Template

end Typikon
