import Typikon.Proofs.Template.PageBlockReading

/-!
Reading undoes printing. From the text of a well-formed template the template is read, up to the
locations of its nodes, and nothing is reported.
-/

namespace Typikon

theorem pageBlockOfWord?_pageBlockWord (edge : PageEdge) (parity : Parity) :
    pageBlockOfWord? (pageBlockWord edge parity) = some (edge, parity) := by
  cases edge <;> cases parity <;> rfl

theorem not_isReserved_pageBlockWord (edge : PageEdge) (parity : Parity) :
    ¬IsReserved (pageBlockWord edge parity) := by
  cases edge <;> cases parity <;> decide

namespace Reading

variable (reports : Reports)

theorem startsItem_of_map_kind_eq {nodes : List Node} {tokens : List Token}
    (hnest : Node.NestIn .template nodes) (hwf : Node.AreWellFormed nodes)
    (hkinds : tokens.map Token.kind = Node.kindsOfAll nodes) : StartsItem tokens := by
  cases nodes with
  | nil =>
    rw [Node.kindsOfAll] at hkinds
    exact .inl (List.map_eq_nil_iff.mp hkinds)
  | cons node nodes =>
    rw [Node.nestIn_cons] at hnest
    rw [Node.AreWellFormed] at hwf
    rw [Node.kindsOfAll] at hkinds
    cases node with
    | atom loc a =>
      rw [Node.IsWellFormed] at hwf
      rw [Node.kinds] at hkinds
      cases hnest.1 with
      | property name value =>
        obtain ⟨loc', tail, rfl, htail⟩ := exists_of_map_kind_eq_cons hkinds
        obtain ⟨loc'', tail', rfl, -⟩ := exists_of_map_kind_eq_cons htail
        exact .inr (.inr ⟨name, loc', loc'', tail', hwf.1.2.1, rfl⟩)
    | group loc g children =>
      cases hnest.1 with
      | pageBlock edge parity =>
        rw [Node.kinds_pageBlock] at hkinds
        obtain ⟨loc', tail, rfl, htail⟩ := exists_of_map_kind_eq_cons hkinds
        obtain ⟨loc'', tail', rfl, -⟩ := exists_of_map_kind_eq_cons htail
        exact .inr (.inr ⟨_, loc', loc'', tail', not_isReserved_pageBlockWord edge parity, rfl⟩)
      | paragraph style version =>
        rw [Node.kinds] at hkinds
        obtain ⟨loc', tail, rfl, -⟩ := exists_of_map_kind_eq_cons hkinds
        exact .inr (.inl ⟨loc', tail, rfl⟩)

theorem items_property {name : String} (value : Value) (nameLoc equalsLoc valueLoc : Location)
    (tokens : List Token) (hname : pageBlockOfWord? name = none) :
    items reports
        (⟨.word name, nameLoc⟩ :: ⟨.equals, equalsLoc⟩ :: ⟨value.kind, valueLoc⟩ :: tokens) =
      let tail := items reports tokens
      { tail with value := .atom nameLoc (.property name value) :: tail.value } := by
  rw [items]
  split
  · next edge parity heq =>
    rw [hname] at heq
    cases heq
  · cases value <;> rfl

theorem items_pageBlock (edge : PageEdge) (parity : Parity) (loc loc' : Location)
    (tokens : List Token) :
    items reports (⟨.word (pageBlockWord edge parity), loc⟩ :: ⟨.equals, loc'⟩ :: tokens) =
      let block := pageBlock edge parity loc reports tokens
      let tail := items block.reports block.rest
      { tail with value := block.value :: tail.value } := by
  rw [items]
  simp only [pageBlockOfWord?_pageBlockWord]

theorem items_body (loc : Location) (tokens : List Token) :
    items reports (⟨.openBrace, loc⟩ :: tokens) =
      let body := body reports tokens
      let tail := items body.reports body.rest
      { tail with value := body.value ++ tail.value } := by
  rw [items]

theorem exists_items_eq {nodes : List Node} {tokens : List Token}
    (hnest : Node.NestIn .template nodes) (hwf : Node.AreWellFormed nodes)
    (hkinds : tokens.map Token.kind = Node.kindsOfAll nodes) :
    ∃ read, items reports tokens = ⟨read, reports, []⟩ ∧
      Node.unlocatedAll read = Node.unlocatedAll nodes := by
  induction nodes generalizing tokens with
  | nil =>
    rw [Node.kindsOfAll] at hkinds
    obtain rfl := List.map_eq_nil_iff.mp hkinds
    exact ⟨[], by rw [items], rfl⟩
  | cons node nodes ih =>
    rw [Node.nestIn_cons] at hnest
    rw [Node.AreWellFormed] at hwf
    obtain ⟨hadmits, hnests, hnest⟩ := hnest
    obtain ⟨hnode, hwf⟩ := hwf
    rw [Node.kindsOfAll] at hkinds
    obtain ⟨itemTokens, others, rfl, hitem, hothers⟩ := List.map_eq_append_iff.mp hkinds
    obtain ⟨read, hread, hsame⟩ := ih hnest hwf hothers
    cases node with
    | atom loc a =>
      rw [Node.IsWellFormed] at hnode
      rw [Node.kinds] at hitem
      cases hadmits with
      | property name value =>
        obtain ⟨nameLoc, tail, rfl, htail⟩ := exists_of_map_kind_eq_cons hitem
        obtain ⟨equalsLoc, tail', rfl, htail'⟩ := exists_of_map_kind_eq_cons htail
        obtain ⟨valueLoc, last, rfl, hlast⟩ := exists_of_map_kind_eq_cons htail'
        obtain rfl := List.map_eq_nil_iff.mp hlast
        refine ⟨.atom nameLoc (.property name value) :: read, ?_, ?_⟩
        · rw [List.cons_append, List.cons_append, List.singleton_append,
            items_property reports value nameLoc equalsLoc valueLoc others hnode.2.2.1]
          dsimp only
          rw [hread]
        · simp only [Node.unlocatedAll, Node.unlocated, Node.Atom.unlocated, hsame]
    | group loc g children =>
      rw [Node.nests_group] at hnests
      rw [Node.IsWellFormed] at hnode
      obtain ⟨hgroup, hneeds, hwfChildren⟩ := hnode
      cases hadmits with
      | pageBlock edge parity =>
        rw [Node.kinds_pageBlock] at hitem
        obtain ⟨loc', tail, rfl, htail⟩ := exists_of_map_kind_eq_cons hitem
        obtain ⟨loc'', tail', rfl, htail'⟩ := exists_of_map_kind_eq_cons htail
        obtain ⟨children', hchildren, hchildrenSame⟩ := exists_pageBlock_eq reports loc' hnests
          hwfChildren (hneeds trivial) htail' (startsItem_of_map_kind_eq hnest hwf hothers)
        refine ⟨.group loc' (.pageBlock edge parity) children' :: read, ?_, ?_⟩
        · rw [List.cons_append, List.cons_append, items_pageBlock]
          dsimp only
          rw [hchildren, hread]
        · simp only [Node.unlocatedAll, Node.unlocated, hchildrenSame, hsame]
      | paragraph style version =>
        rw [Node.kinds] at hitem
        obtain ⟨loc', tail, rfl, htail⟩ := exists_of_map_kind_eq_cons hitem
        obtain ⟨loc'', children', hbody, hchildrenSame⟩ := exists_body_eq reports hnests hwfChildren
          (hneeds trivial) hgroup.2 htail
        refine ⟨.group loc'' (.paragraph style version) children' :: read, ?_, ?_⟩
        · rw [List.cons_append, items_body]
          dsimp only
          rw [hbody, hread]
          rfl
        · simp only [Node.unlocatedAll, Node.unlocated, hchildrenSame, hsame]

end Reading

namespace Template

/-- A well-formed template is read back from its text without an error, up to locations. -/
theorem ofText_print {items : List Node} (h : IsWellFormed items) :
    (ofText (print items)).errors = [] ∧
      (ofText (print items)).items.map Node.unlocated = items.map Node.unlocated := by
  obtain ⟨read, hread, hsame⟩ := Reading.exists_items_eq
    (Reports.none (Scan.ofText (print items)).stop) h.nestIn h.areWellFormed
    (map_kind_ofText_print h.areWellFormed)
  rw [Node.unlocatedAll_eq_map, Node.unlocatedAll_eq_map] at hsame
  unfold ofText
  dsimp only
  rw [hread]
  exact ⟨rfl, hsame⟩

/-- Items with every kind of node in them. -/
def vespersItems : List Node :=
  [.atom .start (.property "Title" (.string "Great\t\"Vespers\"\n")),
    .group .start (.pageBlock .header .even)
      [.group .start (.position "left")
          [.atom .start (.directive "Date"),
            .group .start (.lookup (some 2))
              [.atom .start (.content (.relative "oc*/title"
                [⟨.mode, 3, .start⟩, ⟨.day, -1, .start⟩]))]],
        .group .start (.position "right") [.atom .start (.content (.literal "\\"))]],
    .group .start (.paragraph "p.hymn" true)
      [.group .start (.span "span.red")
          [.atom .start (.content (.absolute "me/text")),
            .group .start (.span "span.bold") [.atom .start (.content (.media "me/audio"))]],
        .atom .start (.content (.literal ""))]]

theorem isWellFormed_vespersItems : IsWellFormed vespersItems := by
  constructor
  · simp only [vespersItems, Node.nestIn_cons, Node.nestIn_nil, Node.nests_atom, Node.nests_group,
      Node.head]
    repeat' constructor
  · simp only [vespersItems, Node.AreWellFormed, Node.IsWellFormed]
    decide

theorem ofText_print_vespersItems :
    IsWellFormed vespersItems ∧ (ofText (print vespersItems)).errors = [] ∧
      (ofText (print vespersItems)).items.map Node.unlocated = vespersItems.map Node.unlocated :=
  ⟨isWellFormed_vespersItems, ofText_print isWellFormed_vespersItems⟩

end Template

end Typikon
