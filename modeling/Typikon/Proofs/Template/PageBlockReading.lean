import Typikon.Proofs.Template.BodyReading

/-!
Reading the tokens of page blocks back. A lookup takes references and the word `lang` as long as it
meets them, a slot directives, lookups and literals, a page block words with no equals sign behind
them; the reserved names keep each of them from going too far.
-/

namespace Typikon

namespace Token.Kind

/-- The tokens that can come after a lookup. -/
def EndsLookup : Kind → Prop
  | .directive name => OverrideKind.ofWord? name = none
  | .word text => text ∉ ["sid", "rid", "lang"]
  | .openBrace => True
  | _ => False

/-- The tokens that can come after what stands in a slot. -/
def EndsSlot : Kind → Prop
  | .word text => ¬IsReserved text
  | .openBrace => True
  | _ => False

theorem EndsLookup.endsOverrides {kind : Kind} (h : kind.EndsLookup) : kind.EndsOverrides := by
  cases kind with
  | directive name => exact h
  | _ => trivial

theorem EndsSlot.endsLookup {kind : Kind} (h : kind.EndsSlot) : kind.EndsLookup := by
  cases kind with
  | word text => exact fun hmem => h (List.mem_cons_of_mem "nid" hmem)
  | openBrace => trivial
  | _ => exact h.elim

end Token.Kind

/-- Tokens that begin with an item of a template, if with any. -/
def StartsItem (rest : List Token) : Prop :=
  rest = [] ∨ (∃ loc tail, rest = ⟨.openBrace, loc⟩ :: tail) ∨
    ∃ word loc loc' tail, ¬IsReserved word ∧ rest = ⟨.word word, loc⟩ :: ⟨.equals, loc'⟩ :: tail

theorem StartsItem.endsSlot {rest : List Token} (h : StartsItem rest) :
    Begins Token.Kind.EndsSlot rest := by
  rcases h with rfl | ⟨loc, tail, rfl⟩ | ⟨word, loc, loc', tail, hword, rfl⟩
  · exact .nil
  · exact .cons trivial _
  · exact .cons hword _

namespace Reading

variable (reports : Reports)

/-! ### Lookups -/

theorem references_of_ends {rest : List Token} (h : Begins Token.Kind.EndsLookup rest) :
    references reports rest = ⟨[], reports, rest⟩ := by
  cases rest with
  | nil => rw [references]
  | cons token tail =>
    rw [references]
    split
    · next word hkind =>
      have hword := h.head
      rw [hkind] at hword
      split
      · next keyword hkeyword =>
        rw [if_neg]
        rintro (rfl | rfl) <;> rw [← word_of_leafKeyword hkeyword] at hword <;>
          exact hword (by decide)
      · rfl
    · rfl

theorem library_of_ends {rest : List Token} (h : Begins Token.Kind.EndsLookup rest) :
    library reports rest = ⟨none, reports, rest⟩ := by
  unfold library
  split
  · exact absurd (by decide) h.head
  · exact absurd (by decide) h.head
  · rfl

theorem references_leaf {word : String} {keyword : LeafKeyword} (loc : Location)
    (tokens : List Token) (hword : LeafKeyword.ofWord? word = some keyword)
    (hreference : keyword = .sid ∨ keyword = .rid) :
    references reports (⟨.word word, loc⟩ :: tokens) =
      let leaf := leaf keyword loc reports tokens
      let tail := references leaf.reports leaf.rest
      { tail with value := leaf.value.toList ++ tail.value } := by
  rw [references]
  simp only [hword, if_pos hreference]

theorem exists_reference_of_admits {number : Option Int} {node : Node}
    (h : (Node.Group.lookup number).Admits node.head) :
    ∃ loc content, node = .atom loc (.content content) ∧
      (content.keyword = .sid ∨ content.keyword = .rid) := by
  cases node with
  | group loc g children => cases h
  | atom loc a =>
    cases h with
    | absolute path => exact ⟨loc, .absolute path, rfl, .inl rfl⟩
    | relative path overrides => exact ⟨loc, .relative path overrides, rfl, .inr rfl⟩

theorem exists_references_eq {number : Option Int} {nodes : List Node} {tokens rest : List Token}
    (hnest : Node.NestIn (.lookup number) nodes)
    (hkinds : tokens.map Token.kind = Node.kindsOfAll nodes)
    (hends : Begins Token.Kind.EndsOverrides rest)
    (hrest : references reports rest = ⟨[], reports, rest⟩) :
    ∃ read, references reports (tokens ++ rest) = ⟨read, reports, rest⟩ ∧
      Node.unlocatedAll read = Node.unlocatedAll nodes := by
  induction nodes generalizing tokens with
  | nil =>
    rw [Node.kindsOfAll] at hkinds
    obtain rfl := List.map_eq_nil_iff.mp hkinds
    exact ⟨[], hrest, rfl⟩
  | cons node nodes ih =>
    rw [Node.nestIn_cons] at hnest
    obtain ⟨hadmits, -, hnest⟩ := hnest
    rw [Node.kindsOfAll] at hkinds
    obtain ⟨leafTokens, others, rfl, hleaf, hothers⟩ := List.map_eq_append_iff.mp hkinds
    obtain ⟨read, hread, hsame⟩ := ih hnest hothers
    obtain ⟨loc, content, rfl, hreference⟩ := exists_reference_of_admits hadmits
    rw [Node.kinds, Node.Atom.kinds, Content.kinds] at hleaf
    obtain ⟨loc', tail, rfl, htail⟩ := exists_of_map_kind_eq_cons hleaf
    have hfollow : Begins Token.Kind.EndsOverrides (others ++ rest) :=
      .append hothers
        (fun _ => endsOverrides_of_head?_eq (Node.Group.isOfText_lookup number) hnest) hends
    obtain ⟨leafRead, hleafRead, hleafSame⟩ := exists_leaf_eq reports loc' htail hfollow
    refine ⟨.atom loc' (.content leafRead) :: read, ?_, ?_⟩
    · rw [List.cons_append, List.cons_append, List.append_assoc,
        references_leaf reports loc' _ content.keyword.ofWord?_word hreference, hleafRead]
      dsimp only
      rw [hread]
      rfl
    · simp only [Node.unlocatedAll, Node.unlocated, Node.Atom.unlocated, hleafSame, hsame]

theorem exists_lookup_eq {number : Option Int} {children : List Node} {tokens rest : List Token}
    (loc : Location) (hnest : Node.NestIn (.lookup number) children)
    (hkinds : tokens.map Token.kind =
      Node.kindsOfAll children ++ (Node.Group.lookup number).closing)
    (hrest : Begins Token.Kind.EndsLookup rest) :
    ∃ read, lookup loc reports (tokens ++ rest) =
        ⟨.group loc (.lookup number) read, reports, rest⟩ ∧
      Node.unlocatedAll read = Node.unlocatedAll children := by
  obtain ⟨childTokens, closing, rfl, hchildren, hclosing⟩ := List.map_eq_append_iff.mp hkinds
  unfold lookup
  cases number with
  | none =>
    obtain rfl := List.map_eq_nil_iff.mp hclosing
    obtain ⟨read, hread, hsame⟩ := exists_references_eq reports hnest hchildren
      (hrest.mono fun _ => Token.Kind.EndsLookup.endsOverrides) (references_of_ends reports hrest)
    refine ⟨read, ?_, hsame⟩
    rw [List.append_nil, hread]
    dsimp only
    rw [library_of_ends reports hrest]
  | some n =>
    obtain ⟨loc', tail, rfl, htail⟩ := exists_of_map_kind_eq_cons hclosing
    obtain ⟨loc'', last, rfl, hlast⟩ := exists_of_map_kind_eq_cons htail
    obtain rfl := List.map_eq_nil_iff.mp hlast
    have hlang : references reports (⟨.word "lang", loc'⟩ :: ⟨.integer n, loc''⟩ :: rest) =
        ⟨[], reports, ⟨.word "lang", loc'⟩ :: ⟨.integer n, loc''⟩ :: rest⟩ := by
      rw [references]
      rfl
    obtain ⟨read, hread, hsame⟩ := exists_references_eq reports hnest hchildren
      (.cons trivial _) hlang
    refine ⟨read, ?_, hsame⟩
    rw [List.append_assoc, List.cons_append, List.singleton_append, hread]
    rfl

/-! ### Slots -/

theorem slotItems_of_ends {rest : List Token} (h : Begins Token.Kind.EndsSlot rest) :
    slotItems reports rest = ⟨[], reports, rest⟩ := by
  cases rest with
  | nil => rw [slotItems]
  | cons token tail =>
    have hkind := h.head
    rw [slotItems]
    split
    · next name heq =>
      rw [heq] at hkind
      exact hkind.elim
    · next word heq =>
      rw [heq] at hkind
      rw [if_neg]
      rintro rfl
      exact hkind (by decide)
    · rfl

theorem slotItems_directive {name : String} (loc : Location) (tokens : List Token)
    (hname : name ≠ "Lookup") :
    slotItems reports (⟨.directive name, loc⟩ :: tokens) =
      let tail := slotItems reports tokens
      { tail with value := .atom loc (.directive name) :: tail.value } := by
  rw [slotItems]
  simp only [if_neg hname]

theorem slotItems_lookup (loc : Location) (tokens : List Token) :
    slotItems reports (⟨.directive "Lookup", loc⟩ :: tokens) =
      let lookup := lookup loc reports tokens
      let tail := slotItems lookup.reports lookup.rest
      { tail with value := lookup.value :: tail.value } := by
  rw [slotItems]
  rfl

theorem slotItems_literal (loc loc' : Location) (text : String) (tokens : List Token) :
    slotItems reports (⟨.word "nid", loc⟩ :: ⟨.string text, loc'⟩ :: tokens) =
      let tail := slotItems reports tokens
      { tail with value := .atom loc (.content (.literal text)) :: tail.value } := by
  rw [slotItems]
  rfl

theorem ofWord?_of_isWellFormed {name : String} (h : (Node.Atom.directive name).IsWellFormed) :
    OverrideKind.ofWord? name = none := by
  cases hkind : OverrideKind.ofWord? name with
  | none => rfl
  | some kind =>
    have hword : kind.word = name := by
      have hfound := List.find?_some hkind
      simpa using hfound
    refine absurd ?_ h.2
    rw [← hword]
    cases kind <;> decide

/-- What stands in a slot does not belong to a lookup before it. -/
theorem endsLookup_of_head?_eq {slot : String} {nodes : List Node} {kind : Token.Kind}
    (hnest : Node.NestIn (.position slot) nodes) (hwf : Node.AreWellFormed nodes)
    (hhead : (Node.kindsOfAll nodes).head? = some kind) : kind.EndsLookup := by
  cases nodes with
  | nil =>
    rw [Node.kindsOfAll] at hhead
    cases hhead
  | cons node nodes =>
    rw [Node.nestIn_cons] at hnest
    rw [Node.AreWellFormed] at hwf
    rw [Node.kindsOfAll] at hhead
    cases node with
    | atom loc a =>
      rw [Node.IsWellFormed] at hwf
      rw [Node.kinds] at hhead
      cases hnest.1 with
      | directive name =>
        cases hhead
        exact ofWord?_of_isWellFormed hwf.1
      | literal text =>
        cases hhead
        change "nid" ∉ ["sid", "rid", "lang"]
        decide
    | group loc g children =>
      rw [Node.kinds] at hhead
      cases hnest.1 with
      | lookup number =>
        cases hhead
        exact rfl

theorem exists_slotItems_eq {slot : String} {nodes : List Node} {tokens rest : List Token}
    (hnest : Node.NestIn (.position slot) nodes) (hwf : Node.AreWellFormed nodes)
    (hkinds : tokens.map Token.kind = Node.kindsOfAll nodes)
    (hrest : Begins Token.Kind.EndsSlot rest) :
    ∃ read, slotItems reports (tokens ++ rest) = ⟨read, reports, rest⟩ ∧
      Node.unlocatedAll read = Node.unlocatedAll nodes := by
  induction nodes generalizing tokens with
  | nil =>
    rw [Node.kindsOfAll] at hkinds
    obtain rfl := List.map_eq_nil_iff.mp hkinds
    exact ⟨[], slotItems_of_ends reports hrest, rfl⟩
  | cons node nodes ih =>
    rw [Node.nestIn_cons] at hnest
    rw [Node.AreWellFormed] at hwf
    obtain ⟨hadmits, hnests, hnest⟩ := hnest
    obtain ⟨hnode, hwf⟩ := hwf
    rw [Node.kindsOfAll] at hkinds
    obtain ⟨itemTokens, others, rfl, hitem, hothers⟩ := List.map_eq_append_iff.mp hkinds
    obtain ⟨read, hread, hsame⟩ := ih hnest hwf hothers
    cases node with
    | atom loc a =>
      rw [Node.IsWellFormed] at hnode
      rw [Node.kinds] at hitem
      cases hadmits with
      | directive name =>
        obtain ⟨loc', last, rfl, hlast⟩ := exists_of_map_kind_eq_cons hitem
        obtain rfl := List.map_eq_nil_iff.mp hlast
        have hname : name ≠ "Lookup" := fun h => hnode.2 (h ▸ List.mem_cons_self)
        refine ⟨.atom loc' (.directive name) :: read, ?_, ?_⟩
        · rw [List.append_assoc, List.singleton_append, slotItems_directive reports loc' _ hname]
          dsimp only
          rw [hread]
        · simp only [Node.unlocatedAll, Node.unlocated, Node.Atom.unlocated, hsame]
      | literal text =>
        obtain ⟨loc', tail, rfl, htail⟩ := exists_of_map_kind_eq_cons hitem
        obtain ⟨loc'', last, rfl, hlast⟩ := exists_of_map_kind_eq_cons htail
        obtain rfl := List.map_eq_nil_iff.mp hlast
        refine ⟨.atom loc' (.content (.literal text)) :: read, ?_, ?_⟩
        · rw [List.append_assoc, List.cons_append, List.singleton_append]
          change slotItems reports (⟨.word "nid", loc'⟩ :: ⟨.string text, loc''⟩ :: _) = _
          rw [slotItems_literal]
          dsimp only
          rw [hread]
        · simp only [Node.unlocatedAll, Node.unlocated, Node.Atom.unlocated, Content.unlocated,
            hsame]
    | group loc g children =>
      rw [Node.nests_group] at hnests
      rw [Node.kinds] at hitem
      cases hadmits with
      | lookup number =>
        rw [Node.Group.opening, List.singleton_append] at hitem
        obtain ⟨loc', tail, rfl, htail⟩ := exists_of_map_kind_eq_cons hitem
        have hfollow : Begins Token.Kind.EndsLookup (others ++ rest) :=
          .append hothers (fun _ => endsLookup_of_head?_eq hnest hwf)
            (hrest.mono fun _ => Token.Kind.EndsSlot.endsLookup)
        obtain ⟨children', hlookup, hlookupSame⟩ :=
          exists_lookup_eq reports loc' hnests htail hfollow
        refine ⟨.group loc' (.lookup number) children' :: read, ?_, ?_⟩
        · rw [List.cons_append, List.cons_append, List.append_assoc, slotItems_lookup]
          dsimp only
          rw [hlookup, hread]
        · simp only [Node.unlocatedAll, Node.unlocated, hlookupSame, hsame]

/-! ### Page blocks -/

theorem exists_position_eq {slot : String} {children : List Node} {tokens rest : List Token}
    (loc : Location) (hnest : Node.NestIn (.position slot) children)
    (hwf : Node.AreWellFormed children) (hne : children ≠ [])
    (hkinds : tokens.map Token.kind = Node.kindsOfAll children)
    (hrest : Begins Token.Kind.EndsSlot rest) :
    ∃ read, position slot loc reports (tokens ++ rest) =
        ⟨.group loc (.position slot) read, reports, rest⟩ ∧
      Node.unlocatedAll read = Node.unlocatedAll children := by
  obtain ⟨read, hread, hsame⟩ := exists_slotItems_eq reports hnest hwf hkinds hrest
  have hnonempty := List.isEmpty_eq_false_iff.mpr (ne_nil_of_unlocatedAll_eq hsame hne)
  refine ⟨read, ?_, hsame⟩
  unfold position
  rw [hread]
  simp only [hnonempty, Bool.false_eq_true, ↓reduceIte]

theorem positions_of_startsItem {rest : List Token} (h : StartsItem rest) :
    positions reports rest = ⟨[], reports, rest⟩ := by
  rcases h with rfl | ⟨loc, tail, rfl⟩ | ⟨word, loc, loc', tail, hword, rfl⟩
  · rw [positions]
  · rw [positions]
  · rw [positions]
    rfl

theorem positions_slot {slot : String} {tokens : List Token} (loc : Location)
    (h : Begins Token.Kind.EndsLookup tokens) :
    positions reports (⟨.word slot, loc⟩ :: tokens) =
      let position := position slot loc reports tokens
      let tail := positions position.reports position.rest
      { tail with value := position.value :: tail.value } := by
  have hne : ∀ loc' tail, tokens ≠ ⟨.equals, loc'⟩ :: tail := by
    rintro loc' tail rfl
    exact h.head
  have hnot : startsAssignment (⟨.word slot, loc⟩ :: tokens) = false := by
    unfold startsAssignment
    split
    · next heq =>
      cases heq
      exact absurd rfl (hne _ _)
    · rfl
  rw [positions]
  simp only [hnot, Bool.false_eq_true, ↓reduceIte]

theorem endsSlot_of_head?_eq {edge : PageEdge} {parity : Parity} {nodes : List Node}
    {kind : Token.Kind} (hnest : Node.NestIn (.pageBlock edge parity) nodes)
    (hwf : Node.AreWellFormed nodes) (hhead : (Node.kindsOfAll nodes).head? = some kind) :
    kind.EndsSlot := by
  cases nodes with
  | nil =>
    rw [Node.kindsOfAll] at hhead
    cases hhead
  | cons node nodes =>
    rw [Node.nestIn_cons] at hnest
    rw [Node.AreWellFormed] at hwf
    rw [Node.kindsOfAll] at hhead
    cases node with
    | atom loc a => cases hnest.1
    | group loc g children =>
      rw [Node.IsWellFormed] at hwf
      cases hnest.1 with
      | position slot =>
        rw [Node.kinds_position] at hhead
        cases hhead
        exact hwf.1.1.2

theorem exists_positions_eq {edge : PageEdge} {parity : Parity} {nodes : List Node}
    {tokens rest : List Token} (hnest : Node.NestIn (.pageBlock edge parity) nodes)
    (hwf : Node.AreWellFormed nodes) (hkinds : tokens.map Token.kind = Node.kindsOfAll nodes)
    (hrest : StartsItem rest) :
    ∃ read, positions reports (tokens ++ rest) = ⟨read, reports, rest⟩ ∧
      Node.unlocatedAll read = Node.unlocatedAll nodes := by
  induction nodes generalizing tokens with
  | nil =>
    rw [Node.kindsOfAll] at hkinds
    obtain rfl := List.map_eq_nil_iff.mp hkinds
    exact ⟨[], positions_of_startsItem reports hrest, rfl⟩
  | cons node nodes ih =>
    rw [Node.nestIn_cons] at hnest
    rw [Node.AreWellFormed] at hwf
    obtain ⟨hadmits, hnests, hnest⟩ := hnest
    obtain ⟨hnode, hwf⟩ := hwf
    rw [Node.kindsOfAll] at hkinds
    obtain ⟨positionTokens, others, rfl, hposition, hothers⟩ := List.map_eq_append_iff.mp hkinds
    obtain ⟨read, hread, hsame⟩ := ih hnest hwf hothers
    cases node with
    | atom loc a => cases hadmits
    | group loc g children =>
      rw [Node.nests_group] at hnests
      rw [Node.IsWellFormed] at hnode
      cases hadmits with
      | position slot =>
        obtain ⟨-, hneeds, hwfChildren⟩ := hnode
        rw [Node.kinds_position] at hposition
        obtain ⟨loc', tail, rfl, htail⟩ := exists_of_map_kind_eq_cons hposition
        have hfollow : Begins Token.Kind.EndsSlot (others ++ rest) :=
          .append hothers (fun _ => endsSlot_of_head?_eq hnest hwf) hrest.endsSlot
        have hinside : Begins Token.Kind.EndsLookup (tail ++ (others ++ rest)) :=
          .append htail (fun _ => endsLookup_of_head?_eq hnests hwfChildren)
            (hfollow.mono fun _ => Token.Kind.EndsSlot.endsLookup)
        obtain ⟨children', hchildren, hchildrenSame⟩ := exists_position_eq reports loc' hnests
          hwfChildren (hneeds trivial) htail hfollow
        refine ⟨.group loc' (.position slot) children' :: read, ?_, ?_⟩
        · rw [List.cons_append, List.cons_append, List.append_assoc,
            positions_slot reports loc' hinside]
          dsimp only
          rw [hchildren, hread]
        · simp only [Node.unlocatedAll, Node.unlocated, hchildrenSame, hsame]

theorem exists_pageBlock_eq {edge : PageEdge} {parity : Parity} {children : List Node}
    {tokens rest : List Token} (loc : Location)
    (hnest : Node.NestIn (.pageBlock edge parity) children) (hwf : Node.AreWellFormed children)
    (hne : children ≠ []) (hkinds : tokens.map Token.kind = Node.kindsOfAll children)
    (hrest : StartsItem rest) :
    ∃ read, pageBlock edge parity loc reports (tokens ++ rest) =
        ⟨.group loc (.pageBlock edge parity) read, reports, rest⟩ ∧
      Node.unlocatedAll read = Node.unlocatedAll children := by
  obtain ⟨read, hread, hsame⟩ := exists_positions_eq reports hnest hwf hkinds hrest
  have hnonempty := List.isEmpty_eq_false_iff.mpr (ne_nil_of_unlocatedAll_eq hsame hne)
  refine ⟨read, ?_, hsame⟩
  unfold pageBlock
  rw [hread]
  simp only [hnonempty, Bool.false_eq_true, ↓reduceIte]

end Reading

end Typikon
