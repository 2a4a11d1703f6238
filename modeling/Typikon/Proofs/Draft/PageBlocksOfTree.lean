import Typikon.Proofs.Document.LayoutImage
import Typikon.Proofs.Draft.ConservationOfTree
import Typikon.Proofs.Draft.Walk

/-!
What the page blocks of a tree do to a draft. If the tree nests as the grammar allows, a position
puts into its slot what its children stand for, a page block adds the header or footer that it
stands for, and everything that stands for nothing is found fault with. Properties and paragraphs
leave headers and footers alone.
-/

namespace Typikon

namespace SlotState

/-- Insertions for the slot that is open, and for no other. -/
def only : SlotState → List Insertion → Slot → List Insertion
  | .inside slot, insertions, other => if other = slot then insertions else []
  | _, _, _ => []

@[simp]
theorem only_nil (s : SlotState) : s.only [] = fun _ => [] := by
  funext other
  cases s <;> simp [only]

theorem only_flatMap {α : Type} (s : SlotState) (f : α → List Insertion) (l : List α) :
    s.only (l.flatMap f) = fun slot => l.flatMap fun a => s.only (f a) slot := by
  funext other
  induction l with
  | nil => rw [List.flatMap_nil, only_nil, List.flatMap_nil]
  | cons a l ih =>
    rw [List.flatMap_cons, List.flatMap_cons, ← ih]
    cases s with
    | inside slot =>
      simp only [only]
      split <;> rfl
    | outside | rejected => rfl

end SlotState

namespace Draft

variable {d next last : Draft} {loc : Location}

theorem insert_eq_append {b : PageBlock} (hblock : d.block = some b) (hslot : d.slot ≠ .outside)
    (insertion : Insertion) :
    d.insert insertion = { d with block := some (b.append (d.slot.only [insertion])) } := by
  obtain ⟨document, reference, dates, paragraph, spans, block, slot, lookup, last, findings⟩ := d
  obtain rfl : block = some b := hblock
  cases slot with
  | outside => exact absurd rfl hslot
  | rejected =>
    have hnone : b.append (SlotState.rejected.only [insertion]) = b := b.append_nil
    simp [insert, hnone]
  | inside slot =>
    have hsome : b.append ((SlotState.inside slot).only [insertion]) = b.insert slot insertion :=
      (b.insert_eq_append slot insertion).symm
    simp [insert, hsome]

/-- A draft goes on within a page block: it has other insertions in the block and has found faults,
perhaps among others. -/
def GoesOn (d : Draft) (block : PageBlock) (faults : List Finding) (next : Draft) : Prop :=
  ∃ last findings,
    next = { d with block := some block, last, findings := d.findings ++ findings } ∧
      faults.Sublist findings

namespace GoesOn

variable {first second : PageBlock} {faults more : List Finding}

theorem refl (hblock : d.block = some first) : GoesOn d first [] d := by
  refine ⟨d.last, [], ?_, .slnil⟩
  rw [List.append_nil, ← hblock]

theorem trans (h : GoesOn d first faults next) (h' : GoesOn next second more last) :
    GoesOn d second (faults ++ more) last := by
  obtain ⟨loc, findings, rfl, hfaults⟩ := h
  obtain ⟨loc', others, rfl, hmore⟩ := h'
  refine ⟨loc', findings ++ others, ?_, hfaults.append hmore⟩
  rw [List.append_assoc]

theorem mono (h : GoesOn d first more next) (hfaults : faults.Sublist more) :
    GoesOn d first faults next := by
  obtain ⟨loc, findings, hnext, hmore⟩ := h
  exact ⟨loc, findings, hnext, hfaults.trans hmore⟩

end GoesOn

/-- A node puts what it stands for into the slot that is open, and is found fault with if it stands
for nothing. -/
def FillsSlot (d : Draft) (b : PageBlock) (node : Node) : Prop :=
  d.GoesOn
    (b.append (d.slot.only
      (node.insertion? d.document.liturgicalDay d.document.liturgicalDay.date).toList))
    (node.slotFault? d.document.liturgicalDay).toList (d.node node)

/-! ### Lookups -/

/-- What a lookup in some references of a library is, which is nothing if one of them lacks. -/
def lookupInsertions (library : Option Nat) (references : List Reference) : List Insertion :=
  if references = [] then []
  else (library.map fun library => .lookup Insertion.lookupStyle ⟨references, library⟩).toList

def lookupFaults (loc : Location) (references : List Reference) : List Finding :=
  if references = [] then [.certain loc .lookupEmpty] else []

theorem BetweenItems.lookup_eq_none (h : d.BetweenItems) : d.lookup = none := by
  have hlookup : d.lookup.isSome = false := h.lookup
  rwa [Option.isSome_eq_false_iff, Option.isNone_iff_eq_none] at hlookup

/-- A leaf that stands in an open lookup adds its reference to it. -/
theorem node_of_lookup {library : Option Int} {frame : OpenLookup} (hframe : d.lookup = some frame)
    {node : Node} (hadmits : (Node.Group.lookup library).Admits node.head) :
    ∃ last findings, d.node node =
      { d with
        lookup := some { frame with
          references := frame.references ++ node.references d.document.liturgicalDay }
        last
        findings := d.findings ++ findings } := by
  cases node with
  | group loc g children => cases hadmits
  | atom loc a =>
    rw [Draft.node]
    cases hadmits with
    | absolute path | relative path overrides =>
      simp only [enter, exit, leaf, place, addFindings, hframe, Node.references]
      exact ⟨_, _, rfl⟩

theorem nodes_of_lookup {library : Option Int} {frame : OpenLookup} (hframe : d.lookup = some frame)
    {nodes : List Node} (hnest : Node.NestIn (.lookup library) nodes) :
    ∃ last findings, d.nodes nodes =
      { d with
        lookup := some { frame with
          references := frame.references ++ Node.referencesOfAll d.document.liturgicalDay nodes }
        last
        findings := d.findings ++ findings } := by
  induction nodes generalizing d frame with
  | nil =>
    refine ⟨d.last, [], ?_⟩
    rw [nodes, Node.referencesOfAll, List.append_nil, List.append_nil, ← hframe]
  | cons node nodes ih =>
    rw [Node.nestIn_cons] at hnest
    obtain ⟨hadmits, -, hrest⟩ := hnest
    obtain ⟨_, findings, hnode⟩ := node_of_lookup hframe hadmits
    obtain ⟨last, others, hnodes⟩ := ih (d := d.node node) (by rw [hnode]) hrest
    refine ⟨last, findings ++ others, ?_⟩
    rw [Draft.nodes, hnodes, hnode, Node.referencesOfAll]
    simp only [List.append_assoc]

theorem enterLookup_of_ok {number : Option Int} {library : Nat} (hslot : d.slot ≠ .outside)
    (h : library? number = .ok library) :
    d.enterLookup loc number = { d with lookup := some ⟨some library, [], true⟩ } := by
  simp [enterLookup, h, hslot, reportIf]

theorem enterLookup_of_error {number : Option Int} {problem : Problem} (hslot : d.slot ≠ .outside)
    (h : library? number = .error problem) :
    d.enterLookup loc number =
      { d.report loc problem with lookup := some ⟨none, [], true⟩ } := by
  simp [enterLookup, h, hslot, reportIf]

theorem goesOn_exitLookup {b : PageBlock} {library : Option Nat} {references : List Reference}
    (hblock : d.block = some b) (hslot : d.slot ≠ .outside)
    (hlookup : d.lookup = some ⟨library, references, true⟩) :
    GoesOn { d with lookup := none } (b.append (d.slot.only (lookupInsertions library references)))
      (lookupFaults loc references) (d.exitLookup loc) := by
  unfold exitLookup lookupInsertions lookupFaults
  simp only [hlookup, List.isEmpty_iff]
  split
  · rw [SlotState.only_nil, PageBlock.append_nil]
    refine ⟨d.last, [.certain loc .lookupEmpty], ?_, .refl _⟩
    rw [← hblock]
    rfl
  · cases library with
    | none =>
      rw [Option.map_none, Option.toList_none, SlotState.only_nil, PageBlock.append_nil]
      exact .refl hblock
    | some library =>
      have hinserted := insert_eq_append (d := { d with lookup := none }) hblock hslot
        (.lookup Insertion.lookupStyle ⟨references, library⟩)
      refine ⟨d.last, [], ?_, .slnil⟩
      rw [List.append_nil]
      exact hinserted

theorem goesOn_nodes_exitLookup {b : PageBlock} {library : Option Nat} {number : Option Int}
    {children : List Node} (hblock : d.block = some b) (hslot : d.slot ≠ .outside)
    (hlookup : d.lookup = some ⟨library, [], true⟩)
    (hnest : Node.NestIn (.lookup number) children) :
    let references := Node.referencesOfAll d.document.liturgicalDay children
    GoesOn { d with lookup := none } (b.append (d.slot.only (lookupInsertions library references)))
      (lookupFaults loc references) ((d.nodes children).exitLookup loc) := by
  intro references
  obtain ⟨last, findings, hnodes⟩ := nodes_of_lookup hlookup hnest
  have hpassed : GoesOn { d with lookup := none } b []
      { d with lookup := none, last, findings := d.findings ++ findings } :=
    ⟨last, findings, by rw [← hblock], List.nil_sublist findings⟩
  rw [hnodes]
  exact hpassed.trans (goesOn_exitLookup hblock hslot rfl)

section Library

variable {day : LiturgicalDay} {number : Option Int} {children : List Node}

theorem exists_of_library?_eq_ok {library : Nat} (h : library? number = .ok library) :
    ∃ n, number = some n ∧ (1 ≤ n ∧ n ≤ 3) ∧ library = n.toNat := by
  unfold library? at h
  split at h
  · cases h
  next n =>
    split at h
    next hrange =>
      cases h
      exact ⟨n, rfl, hrange, rfl⟩
    · cases h

theorem insertion?_lookup_of_ok {library : Nat} (h : library? number = .ok library)
    (today : CivilDate) :
    ((Node.group loc (.lookup number) children).insertion? day today).toList =
      lookupInsertions (some library) (Node.referencesOfAll day children) := by
  obtain ⟨n, rfl, hrange, rfl⟩ := exists_of_library?_eq_ok h
  by_cases hempty : Node.referencesOfAll day children = [] <;>
    simp [Node.insertion?, lookupInsertions, hempty, hrange]

theorem slotFault?_lookup_of_ok {library : Nat} (h : library? number = .ok library) :
    ((Node.group loc (.lookup number) children).slotFault? day).toList =
      lookupFaults loc (Node.referencesOfAll day children) := by
  obtain ⟨n, rfl, hrange, rfl⟩ := exists_of_library?_eq_ok h
  by_cases hempty : Node.referencesOfAll day children = [] <;>
    simp [Node.slotFault?, Node.insertion?, Node.slotProblem, Node.location, lookupFaults, hempty,
      hrange]

theorem insertion?_lookup_of_error {problem : Problem} (h : library? number = .error problem)
    (today : CivilDate) :
    (Node.group loc (.lookup number) children).insertion? day today = none := by
  unfold library? at h
  split at h
  · rfl
  next n =>
    split at h
    · cases h
    next hrange => exact if_neg fun hlookup => hrange ⟨hlookup.1, hlookup.2.1⟩

theorem slotFault?_lookup_of_error {problem : Problem} (h : library? number = .error problem) :
    (Node.group loc (.lookup number) children).slotFault? day = some (.certain loc problem) := by
  rw [Node.slotFault?, if_pos (insertion?_lookup_of_error h day.date)]
  unfold library? at h
  split at h
  · cases h
    rfl
  next n =>
    split at h
    · cases h
    next hrange =>
      cases h
      rw [Node.slotProblem, if_neg hrange]
      rfl

end Library

/-- A lookup puts its references into the slot, if it has some and its library is one of the
three. -/
theorem fillsSlot_lookup {b : PageBlock} (h : d.BetweenItems) (hblock : d.block = some b)
    (hslot : d.slot ≠ .outside) {number : Option Int} {children : List Node}
    (hnest : Node.NestIn (.lookup number) children) :
    d.FillsSlot b (.group loc (.lookup number) children) := by
  have hnone : d.lookup = none := h.lookup_eq_none
  let here : Draft := { d with last := loc }
  have hnode : d.node (.group loc (.lookup number) children) =
      ((here.enterLookup loc number).nodes children).exitLookup loc := by
    rw [Draft.node]
    rfl
  unfold FillsSlot
  rw [hnode]
  cases hlibrary : library? number with
  | ok library =>
    let opened : Draft := { here with lookup := some ⟨some library, [], true⟩ }
    have henter : here.enterLookup loc number = opened := enterLookup_of_ok hslot hlibrary
    have hentered : d.GoesOn b [] { here with lookup := none } :=
      ⟨loc, [], by rw [List.append_nil, ← hblock, ← hnone], .slnil⟩
    have hfilled : GoesOn { here with lookup := none } _ _
        ((opened.nodes children).exitLookup loc) :=
      goesOn_nodes_exitLookup hblock hslot rfl hnest
    rw [henter, insertion?_lookup_of_ok hlibrary, slotFault?_lookup_of_ok hlibrary]
    exact hentered.trans hfilled
  | error problem =>
    let opened : Draft := { here.report loc problem with lookup := some ⟨none, [], true⟩ }
    have henter : here.enterLookup loc number = opened := enterLookup_of_error hslot hlibrary
    have hentered : d.GoesOn b [.certain loc problem]
        { here.report loc problem with lookup := none } :=
      ⟨loc, [.certain loc problem], by rw [← hblock, ← hnone]; rfl, .refl _⟩
    have hfilled : GoesOn { here.report loc problem with lookup := none } _ _
        ((opened.nodes children).exitLookup loc) :=
      goesOn_nodes_exitLookup hblock hslot rfl hnest
    rw [lookupInsertions, Option.map_none, Option.toList_none, ite_self] at hfilled
    rw [henter, insertion?_lookup_of_error hlibrary, slotFault?_lookup_of_error hlibrary]
    exact (hentered.trans hfilled).mono (List.sublist_append_left _ _)

/-! ### Positions -/

theorem GoesOn.insert {b : PageBlock} {faults : List Finding} (h : d.GoesOn b faults next)
    (hslot : d.slot ≠ .outside) (insertion : Insertion) :
    d.GoesOn (b.append (d.slot.only [insertion])) faults (next.insert insertion) := by
  obtain ⟨last, findings, rfl, hfaults⟩ := h
  have hinsert := insert_eq_append (b := b)
    (d := { d with block := some b, last, findings := d.findings ++ findings }) rfl hslot insertion
  exact ⟨last, findings, hinsert, hfaults⟩

theorem fillsSlot_directive {b : PageBlock} (hblock : d.block = some b)
    (hslot : d.slot ≠ .outside) (loc : Location) (name : String) :
    d.FillsSlot b (.atom loc (.directive name)) := by
  let here : Draft := { d with last := loc }
  have hnode : d.node (.atom loc (.directive name)) = here.directive loc name := by
    rw [Draft.node]
    rfl
  have hinsertion (today : CivilDate) :
      (Node.atom loc (.directive name)).insertion? d.document.liturgicalDay today =
        directiveInsertion? today name := rfl
  have hhere : d.GoesOn b [] here := ⟨loc, [], by rw [List.append_nil, ← hblock], .slnil⟩
  unfold FillsSlot
  rw [hnode, directive, Node.slotFault?, hinsertion]
  have hday : here.document.liturgicalDay = d.document.liturgicalDay := rfl
  rw [hday]
  cases directiveInsertion? d.document.liturgicalDay.date name with
  | none =>
    rw [if_pos rfl, Option.toList_none, SlotState.only_nil, PageBlock.append_nil]
    exact ⟨loc, [.certain loc (.unknownDirective name)], by rw [← hblock]; rfl, .refl _⟩
  | some insertion =>
    rw [if_neg (Option.some_ne_none insertion)]
    have houtside : here.slot ≠ .outside := hslot
    dsimp only
    rw [if_neg houtside]
    exact hhere.insert hslot insertion

theorem place_literal (h : d.BetweenItems) (hslot : d.slot ≠ .outside) (text : String)
    (reference : Reference) :
    d.place loc (.literal text) reference =
      d.insert (.literal Insertion.literalStyle text) := by
  have hattach (span : Span) : d.attach? span = none := attach?_eq_none_iff.mpr h.idle
  simp [place, h.lookup_eq_none, hattach, hslot]

theorem fillsSlot_literal {b : PageBlock} (h : d.BetweenItems) (hblock : d.block = some b)
    (hslot : d.slot ≠ .outside) (loc : Location) (text : String) :
    d.FillsSlot b (.atom loc (.content (.literal text))) := by
  let r := Resolution.ofContent d.document.liturgicalDay (.literal text)
  let findings := Finding.ofResolution loc none none r
  let here : Draft := { d with last := loc, findings := d.findings ++ findings }
  have hnode : d.node (.atom loc (.content (.literal text))) =
      here.place loc (.literal text) r.reference := by
    rw [Draft.node]
    rfl
  have hhere : d.GoesOn b [] here := ⟨loc, findings, by rw [← hblock], List.nil_sublist findings⟩
  have hbetween : here.BetweenItems := h.of_body_eq rfl
  unfold FillsSlot
  rw [hnode, place_literal hbetween hslot]
  exact hhere.insert hslot (.literal Insertion.literalStyle text)

theorem BetweenItems.fillsSlot (h : d.BetweenItems) {b : PageBlock}
    (hblock : d.block = some b) (hslot : d.slot ≠ .outside) {name : String} {node : Node}
    (hadmits : (Node.Group.position name).Admits node.head) (hnests : node.Nests) :
    d.FillsSlot b node := by
  cases node with
  | atom loc a =>
    cases hadmits with
    | directive name => exact fillsSlot_directive hblock hslot loc name
    | literal text => exact fillsSlot_literal h hblock hslot loc text
  | group loc g children =>
    rw [Node.nests_group] at hnests
    cases hadmits with
    | lookup number => exact fillsSlot_lookup h hblock hslot hnests

/-- If each of some nodes adds insertions to a block whatever is in it, all of them add theirs one
after another. -/
theorem goesOn_nodes {b : PageBlock} (hblock : d.block = some b) {nodes : List Node}
    {more : Node → Slot → List Insertion} {faults : Node → List Finding}
    (hnode : ∀ node ∈ nodes, ∀ block last findings,
      let here : Draft := { d with block := some block, last, findings }
      here.GoesOn (block.append (more node)) (faults node) (here.node node)) :
    d.GoesOn (b.append fun slot => nodes.flatMap (more · slot)) (nodes.flatMap faults)
      (d.nodes nodes) := by
  induction nodes generalizing d b with
  | nil =>
    rw [nodes]
    simp only [List.flatMap_nil, PageBlock.append_nil]
    exact .refl hblock
  | cons node nodes ih =>
    have hfirst : d.GoesOn (b.append (more node)) (faults node) (d.node node) := by
      have hhere := hnode node List.mem_cons_self b d.last d.findings
      rwa [← hblock] at hhere
    obtain ⟨last, findings, hsame, hfaults⟩ := hfirst
    let next : Draft :=
      { d with block := some (b.append (more node)), last, findings := d.findings ++ findings }
    have hrest : next.GoesOn _ _ (next.nodes nodes) :=
      ih rfl fun other hother => hnode other (List.mem_cons_of_mem node hother)
    have hboth := GoesOn.trans ⟨last, findings, rfl, hfaults⟩ hrest
    rw [Draft.nodes, hsame, List.flatMap_cons]
    rw [PageBlock.append_append] at hboth
    exact hboth

/-- The children of a position put what they stand for into its slot. -/
theorem BetweenItems.goesOn_nodes_of_position (h : d.BetweenItems) {b : PageBlock}
    (hblock : d.block = some b) (hslot : d.slot ≠ .outside) {name : String} {nodes : List Node}
    (hnest : Node.NestIn (.position name) nodes) :
    let day := d.document.liturgicalDay
    d.GoesOn (b.append (d.slot.only (nodes.filterMap (Node.insertion? day day.date))))
      (nodes.filterMap (Node.slotFault? day)) (d.nodes nodes) := by
  intro day
  rw [Node.nestIn_iff_forall] at hnest
  rw [List.filterMap_eq_flatMap_toList, List.filterMap_eq_flatMap_toList, SlotState.only_flatMap]
  apply goesOn_nodes hblock
  intro node hmem block last findings here
  have hhere : here.BetweenItems := h.of_body_eq rfl
  obtain ⟨hadmits, hnests⟩ := hnest node hmem
  exact hhere.fillsSlot rfl hslot hadmits hnests

theorem enterPosition_of_find?_eq_some {b : PageBlock} {name : String} {slot : Slot}
    (hblock : d.block = some b) (h : Slot.vocabulary.find? name = some slot) :
    d.enterPosition loc name = { d with slot := .inside slot } := by
  simp [enterPosition, hblock, Text.Vocabulary.read, h]

theorem enterPosition_of_find?_eq_none {b : PageBlock} {name : String}
    (hblock : d.block = some b) (h : Slot.vocabulary.find? name = none) :
    d.enterPosition loc name =
      { d.report loc
          (.keyword ⟨Slot.vocabulary.subject, name, Slot.vocabulary.expected⟩) with
        slot := .rejected } := by
  simp [enterPosition, hblock, Text.Vocabulary.read, h]

theorem GoesOn.leave {b : PageBlock} {faults : List Finding} {slot : SlotState}
    (h : GoesOn { d with slot } b faults next) (hslot : d.slot = .outside) :
    d.GoesOn b faults next.exitPosition := by
  obtain ⟨last, findings, rfl, hfaults⟩ := h
  refine ⟨last, findings, ?_, hfaults⟩
  rw [hslot]
  rfl

section Position

variable {day : LiturgicalDay} {name : String} {children : List Node}

theorem slotInsertions_of_find?_eq_some {slot : Slot}
    (h : Slot.vocabulary.find? name = some slot) (today : CivilDate) :
    (Node.group loc (.position name) children).slotInsertions day today =
      (SlotState.inside slot).only (children.filterMap (Node.insertion? day today)) := by
  funext other
  by_cases hslot : other = slot
  · simp [Node.slotInsertions, SlotState.only, h, hslot]
  · simp [Node.slotInsertions, SlotState.only, h, hslot, Ne.symm hslot]

theorem slotInsertions_of_find?_eq_none (h : Slot.vocabulary.find? name = none)
    (today : CivilDate) :
    (Node.group loc (.position name) children).slotInsertions day today =
      SlotState.rejected.only (children.filterMap (Node.insertion? day today)) := by
  funext other
  simp [Node.slotInsertions, SlotState.only, h]

end Position

/-- A position, which is entered and left outside of all slots. -/
theorem BetweenItems.goesOn_of_pageBlock (h : d.BetweenItems) {b : PageBlock}
    (hblock : d.block = some b) (hslot : d.slot = .outside) {edge : PageEdge} {parity : Parity}
    {node : Node} (hadmits : (Node.Group.pageBlock edge parity).Admits node.head)
    (hnests : node.Nests) :
    let day := d.document.liturgicalDay
    d.GoesOn (b.append (node.slotInsertions day day.date)) (node.positionFaults day)
      (d.node node) := by
  intro day
  cases node with
  | atom loc a => cases hadmits
  | group loc g children =>
    rw [Node.nests_group] at hnests
    cases hadmits with
    | position name =>
      let here : Draft := { d with last := loc }
      have hnode : d.node (.group loc (.position name) children) =
          ((here.enterPosition loc name).nodes children).exitPosition := by
        rw [Draft.node]
        rfl
      rw [hnode]
      have hhere : d.GoesOn b [] here := ⟨loc, [], by rw [List.append_nil, ← hblock], .slnil⟩
      cases hfind : Slot.vocabulary.find? name with
      | some slot =>
        let opened : Draft := { here with slot := .inside slot }
        have henter : here.enterPosition loc name = opened :=
          enterPosition_of_find?_eq_some hblock hfind
        have hopened : opened.BetweenItems := h.of_body_eq rfl
        have hfilled := hopened.goesOn_nodes_of_position hblock SlotState.noConfusion hnests
        have hleft := GoesOn.leave (d := here) hfilled hslot
        rw [henter, slotInsertions_of_find?_eq_some hfind, Node.positionFaults, hfind]
        exact hhere.trans hleft
      | none =>
        let told := here.report loc
          (.keyword ⟨Slot.vocabulary.subject, name, Slot.vocabulary.expected⟩)
        let opened : Draft := { told with slot := .rejected }
        have henter : here.enterPosition loc name = opened :=
          enterPosition_of_find?_eq_none hblock hfind
        have hopened : opened.BetweenItems := h.of_body_eq rfl
        have hfilled := hopened.goesOn_nodes_of_position hblock SlotState.noConfusion hnests
        have hleft := GoesOn.leave (d := told) hfilled hslot
        have htold : d.GoesOn b _ told := ⟨loc, _, by rw [← hblock]; rfl, .refl _⟩
        rw [henter, slotInsertions_of_find?_eq_none hfind, Node.positionFaults, hfind]
        exact htold.trans hleft

/-! ### Page blocks -/

/-- Outside paragraphs, lookups and page blocks. -/
structure BetweenBlocks (d : Draft) : Prop where
  betweenItems : d.BetweenItems
  block : d.block = none
  slot : d.slot = .outside

def layout (d : Draft) : PageLayout :=
  d.document.pdf.layout

def withLayout (d : Draft) (layout : PageLayout) : Draft :=
  { d with document := { d.document with pdf := { d.document.pdf with layout } } }

/-- A page block adds the header or footer that it stands for, with the dates that are in force. -/
theorem BetweenBlocks.node_pageBlock (h : d.BetweenBlocks) (loc : Location) {edge : PageEdge}
    {parity : Parity} {children : List Node}
    (hnest : Node.NestIn (.pageBlock edge parity) children) :
    let day := d.document.liturgicalDay
    let node := Node.group loc (.pageBlock edge parity) children
    ∃ block last findings, node.pageBlock? day day.date = some block ∧
      d.node node =
        { d.withLayout (d.layout.add block) with last, findings := d.findings ++ findings } ∧
      (node.pageFaults day).Sublist findings := by
  intro day node
  let entered : Draft := { d with last := loc, block := some (.empty edge parity) }
  have hnode : d.node node = (entered.nodes children).exitBlock loc := by
    have henter : d.enter loc (.group (.pageBlock edge parity)) = entered := by
      simp [enter, enterBlock, reportIf, h.block, h.slot, entered]
    rw [Draft.node, henter]
    rfl
  have hentered : entered.BetweenItems := h.betweenItems.of_body_eq rfl
  rw [Node.nestIn_iff_forall] at hnest
  obtain ⟨last, findings, hsame, hfaults⟩ :
      entered.GoesOn
        ((PageBlock.empty edge parity).append fun slot =>
          children.flatMap (Node.slotInsertions day day.date · slot))
        (children.flatMap (Node.positionFaults day)) (entered.nodes children) := by
    apply goesOn_nodes rfl
    intro child hmem block last findings here
    obtain ⟨hadmits, hnests⟩ := hnest child hmem
    have hhere : here.BetweenItems := h.betweenItems.of_body_eq rfl
    exact hhere.goesOn_of_pageBlock rfl h.slot hadmits hnests
  refine ⟨_, last, findings, rfl, ?_, hfaults⟩
  rw [hnode, hsame]
  simp only [exitBlock, closeBlock, withLayout, layout, entered, PageBlock.append, PageBlock.empty,
    List.nil_append]
  rw [← h.block, ← h.slot]

/-! ### Text -/

/-- What a draft has of its headers and footers. -/
structure Margins where
  layout : PageLayout
  block : Option PageBlock
  slot : SlotState
  lookup : Option OpenLookup

def margins (d : Draft) : Margins :=
  ⟨d.layout, d.block, d.slot, d.lookup⟩

theorem isViewOf_margins : IsViewOf margins [.blocks, .insertions, .slot, .lookup] := by
  intro d e he
  cases e <;> first | rfl | simp [Edit.part] at he

/-- A leaf outside slots and lookups is none of the headers and footers. -/
theorem margins_leaf (d : Draft) (loc : Location) (content : Content) (hslot : d.slot = .outside)
    (hlookup : d.lookup = none) :
    (d.event (.enter loc (.atom (.content content)))).margins = d.margins := by
  rw [event_eq, edits, enterEdits, applyAll_cons, applyAll_append, applyAll_map_find]
  unfold placeEdits
  simp only [hslot, hlookup, Option.isSome_none, Bool.false_eq_true, if_false, if_true]
  split <;> rfl

mutual

theorem margins_node_of_isText {d : Draft} (hslot : d.slot = .outside) (hlookup : d.lookup = none) :
    (node : Node) → node.head.IsText → node.Nests → (d.node node).margins = d.margins
  | .atom loc a, htext, _ => by
    cases htext with
    | leaf content =>
      rw [Draft.node]
      exact d.margins_leaf loc content hslot hlookup
  | .group loc g children, htext, hnests => by
    cases htext with
    | span style =>
      rw [Node.nests_group] at hnests
      let entered := d.event (.enter loc (.group (.span style)))
      have hentered : entered.margins = d.margins :=
        isViewOf_margins.event_eq (by simp [Event.parts]) d
      have hchildren : (entered.nodes children).margins = entered.margins :=
        margins_nodes_of_nestIn ((congrArg Margins.slot hentered).trans hslot)
          ((congrArg Margins.lookup hentered).trans hlookup)
          (Node.Group.isOfText_span style) children hnests
      have hexited : ((entered.nodes children).event (.exit loc (.group (.span style)))).margins =
          (entered.nodes children).margins :=
        isViewOf_margins.event_eq (by simp [Event.parts]) _
      rw [Draft.node]
      exact hexited.trans (hchildren.trans hentered)

theorem margins_nodes_of_nestIn {d : Draft} (hslot : d.slot = .outside) (hlookup : d.lookup = none)
    {g : Node.Group} (hg : g.IsOfText) :
    (nodes : List Node) → Node.NestIn g nodes → (d.nodes nodes).margins = d.margins
  | [], _ => by
    rw [nodes]
  | node :: nodes, hnest => by
    rw [Node.nestIn_cons] at hnest
    obtain ⟨hadmits, hnests, hrest⟩ := hnest
    have hnode := margins_node_of_isText hslot hlookup node (hg _ hadmits) hnests
    have hnodes : ((d.node node).nodes nodes).margins = (d.node node).margins :=
      margins_nodes_of_nestIn ((congrArg Margins.slot hnode).trans hslot)
        ((congrArg Margins.lookup hnode).trans hlookup) hg nodes hrest
    rw [Draft.nodes]
    exact hnodes.trans hnode

end

/-! ### Items -/

/-- A draft gets headers and footers, whose dates can be set to any, and faults are found, perhaps
among others. -/
structure Gets (d : Draft) (blocks : CivilDate → List PageBlock) (faults : List Finding)
    (next : Draft) : Prop where
  layout : ∀ today,
    next.layout.withDate today = (blocks today).foldl PageLayout.add (d.layout.withDate today)
  finds : ∃ findings, next.findings = d.findings ++ findings ∧ faults.Sublist findings

theorem Gets.trans {blocks others : CivilDate → List PageBlock} {faults more : List Finding}
    (h : d.Gets blocks faults next) (h' : next.Gets others more last) :
    d.Gets (fun today => blocks today ++ others today) (faults ++ more) last where
  layout := by
    intro today
    rw [h'.layout, h.layout, List.foldl_append]
  finds := by
    obtain ⟨findings, hnext, hfaults⟩ := h.finds
    obtain ⟨later, hlast, hmore⟩ := h'.finds
    refine ⟨findings ++ later, ?_, hfaults.append hmore⟩
    rw [hlast, hnext, List.append_assoc]

theorem BetweenBlocks.of_margins_eq (h : d.BetweenBlocks) (hbetween : next.BetweenItems)
    (hmargins : next.margins = d.margins) : next.BetweenBlocks where
  betweenItems := hbetween
  block := (congrArg Margins.block hmargins).trans h.block
  slot := (congrArg Margins.slot hmargins).trans h.slot

theorem Gets.of_margins_eq (hmargins : next.margins = d.margins)
    (hfindings : d.findings <+: next.findings) : d.Gets (fun _ => []) [] next where
  layout := by
    intro today
    have hlayout : next.layout = d.layout := congrArg Margins.layout hmargins
    rw [hlayout]
    rfl
  finds := by
    obtain ⟨findings, hnext⟩ := hfindings
    exact ⟨findings, hnext.symm, List.nil_sublist findings⟩

theorem findings_prefix_node (d : Draft) (node : Node) : d.findings <+: (d.node node).findings := by
  rw [← events_node]
  exact d.findings_prefix_events node.events

/-- The text of a paragraph is none of the headers and footers. -/
theorem BetweenBlocks.margins_paragraph (h : d.BetweenBlocks) (loc : Location) {style : String}
    {version : Bool} {children : List Node}
    (hnest : Node.NestIn (.paragraph style version) children) :
    (d.node (.group loc (.paragraph style version) children)).margins = d.margins := by
  let entered := d.event (.enter loc (.group (.paragraph style version)))
  have hentered : entered.margins = d.margins :=
    isViewOf_margins.event_eq (by simp [Event.parts]) d
  have hchildren : (entered.nodes children).margins = entered.margins :=
    margins_nodes_of_nestIn ((congrArg Margins.slot hentered).trans h.slot)
      ((congrArg Margins.lookup hentered).trans h.betweenItems.lookup_eq_none)
      (Node.Group.isOfText_paragraph style version) children hnest
  have hexited :
      ((entered.nodes children).event (.exit loc (.group (.paragraph style version)))).margins =
        (entered.nodes children).margins :=
    isViewOf_margins.event_eq (by simp [Event.parts]) _
  rw [node]
  exact hexited.trans (hchildren.trans hentered)

theorem BetweenItems.node_item (h : d.BetweenItems) {item : Node}
    (hadmits : Node.Group.template.Admits item.head) (hnests : item.Nests) :
    (d.node item).BetweenItems ∧ (d.node item).dating = d.dating.after item := by
  have hbody := h.idle.events_of_template h.lookup hadmits hnests
  rw [← body_events, events_node] at hbody
  refine ⟨⟨?_, ?_⟩, congrArg Body.dating hbody⟩
  · rw [hbody]
    exact ⟨h.idle.paragraph, h.idle.spans⟩
  · rw [hbody]
    exact h.lookup

/-- An item of a template adds the header or footer that it stands for, if it does for one. -/
theorem BetweenBlocks.gets_item (h : d.BetweenBlocks) {item : Node}
    (hadmits : Node.Group.template.Admits item.head) (hnests : item.Nests) :
    (d.node item).BetweenBlocks ∧
      d.Gets (fun today => (item.pageBlock? d.dating.day today).toList)
        (item.pageFaults d.dating.day) (d.node item) := by
  obtain ⟨hbetween, -⟩ := h.betweenItems.node_item hadmits hnests
  cases item with
  | atom loc a =>
    cases hadmits with
    | property name value =>
      have hentered : (d.event (.enter loc (.atom (.property name value)))).margins = d.margins :=
        isViewOf_margins.event_eq (by simp [Event.parts]) d
      have hmargins : (d.node (.atom loc (.property name value))).margins = d.margins := by
        rw [node]
        exact hentered
      exact ⟨h.of_margins_eq hbetween hmargins, .of_margins_eq hmargins (d.findings_prefix_node _)⟩
  | group loc g children =>
    rw [Node.nests_group] at hnests
    cases hadmits with
    | paragraph style version =>
      have hmargins := h.margins_paragraph loc hnests
      exact ⟨h.of_margins_eq hbetween hmargins, .of_margins_eq hmargins (d.findings_prefix_node _)⟩
    | pageBlock edge parity =>
      obtain ⟨block, last, findings, hpage, hnode, hfaults⟩ := h.node_pageBlock loc hnests
      have hlayout : (d.node (.group loc (.pageBlock edge parity) children)).layout =
          d.layout.add block := by
        rw [hnode]
        rfl
      refine ⟨⟨hbetween, ?_, ?_⟩, ?_, ?_⟩
      · rw [hnode]
        exact h.block
      · rw [hnode]
        exact h.slot
      · intro today
        have hdated := Node.withDate_pageBlock? d.document.liturgicalDay today
          d.document.liturgicalDay.date (.group loc (.pageBlock edge parity) children)
        have hday : d.dating.day = d.document.liturgicalDay := rfl
        rw [hpage] at hdated
        rw [hlayout, PageLayout.withDate_add, hday, ← hdated]
        rfl
      · rw [hnode]
        exact ⟨findings, rfl, hfaults⟩

/-- The items of a template add the headers and footers that they stand for. -/
theorem BetweenBlocks.gets_nodes (h : d.BetweenBlocks) {items : List Node}
    (hnest : Node.NestIn .template items) :
    (d.nodes items).BetweenBlocks ∧
      d.Gets (d.dating.pageBlocks · items) (d.dating.pageFaults items) (d.nodes items) := by
  induction items generalizing d with
  | nil =>
    rw [nodes]
    exact ⟨h, .of_margins_eq rfl (List.prefix_refl _)⟩
  | cons item items ih =>
    rw [Node.nestIn_cons] at hnest
    obtain ⟨hadmits, hnests, hrest⟩ := hnest
    obtain ⟨hbetween, hitem⟩ := h.gets_item hadmits hnests
    obtain ⟨hlast, hitems⟩ := ih hbetween hrest
    obtain ⟨-, hdating⟩ := h.betweenItems.node_item hadmits hnests
    rw [hdating] at hitems
    rw [nodes]
    exact ⟨hlast, hitem.trans hitems⟩

/-- Nothing is added to headers and footers in the end if no page block is open. -/
theorem layout_closeAll (hblock : d.block = none) : d.closeAll.layout = d.layout := by
  have hparts : ∀ e ∈ d.closingEdits, e.part ∉ [Part.blocks, .insertions, .slot, .lookup] := by
    simp only [closingEdits, hblock, List.forall_mem_append, Edit.forall_mem_faultIf,
      Edit.forall_mem_doIf]
    simp [Edit.part, Edit.fault]
  rw [closeAll_eq]
  exact congrArg Margins.layout (isViewOf_margins.applyAll_eq hparts d)

end Draft

end Typikon
