import Mathlib.Data.List.Forall2
import Typikon.Proofs.Draft.Entered
import Typikon.Proofs.Draft.Findings
import Typikon.Proofs.Draft.Walk

/-!
What becomes of the content of a template. What each edit takes out of a draft and what it puts in
is told once. As long as a draft finds no fault, each leaf and directive that is entered becomes one
piece of it, and what an event takes out it puts back. Only the references of a lookup can go
missing without a fault: when another lookup is entered before theirs is left, and when it is left
outside a slot.
-/

namespace Typikon

/-- An edit that finds nothing, or finds a question that an index may yet settle. -/
def Edit.IsClean (e : Edit) : Prop :=
  ∀ finding ∈ e.found, finding.question?.isSome

theorem Edit.not_isClean_fault {loc : Location} {problem : Problem} :
    ¬(fault loc problem).IsClean := by
  simp [IsClean, fault, found, Finding.question?]

theorem Edit.not_isClean_of_fault_cons {loc : Location} {problem : Problem} {edits : List Edit} :
    ¬∀ e ∈ fault loc problem :: edits, e.IsClean :=
  fun h => not_isClean_fault (h _ List.mem_cons_self)

theorem Edit.forall_isClean_faultIf {condition : Bool} {loc : Location} {problem : Problem} :
    (∀ e ∈ faultIf condition loc problem, e.IsClean) ↔ condition = false := by
  rw [forall_mem_faultIf, imp_iff_not not_isClean_fault, Bool.not_eq_true]

namespace Draft

/-- The references that are in the open lookup. -/
def pending (d : Draft) : List Reference :=
  d.lookup.elim [] OpenLookup.references

/-- The pieces of a draft, those still open included. -/
def pieces (d : Draft) : List Piece :=
  d.document.pieces ++ d.paragraph.toList.flatMap Paragraph.pieces ++ Span.piecesOfAll d.spans ++
    d.block.toList.flatMap PageBlock.pieces ++ d.pending.map .lookup

/-- All that has been found is questions, which an index may yet settle. -/
def IsClean (d : Draft) : Prop :=
  d.FindsOnly fun finding => finding.question?.isSome

/-- How a draft stands in which no fault has been found. -/
structure InOrder (d : Draft) : Prop where
  slot : d.slot = .outside ∨ ∃ slot block, d.slot = .inside slot ∧ d.block = some block
  spans : d.spans = [] ∨ ∃ paragraph, d.paragraph = some paragraph
  lookup : ∀ frame, d.lookup = some frame →
    frame.inSlot = true ∧ ∃ library, frame.library = some library

/-- The references that are lost to a draft by an event. -/
def dropped (d : Draft) : Event → List Reference
  | .enter _ (.group (.lookup _)) => d.pending
  | .exit _ (.group (.lookup _)) => if d.slot = .outside then d.pending else []
  | _ => []

/-- A draft goes on to another in order, in which all its pieces are but those of dropped
references, and new ones besides. -/
structure Gains (d : Draft) (gained : List Piece) (lost : List Reference) (next : Draft) :
    Prop where
  inOrder : next.InOrder
  perm : (d.pieces ++ gained).Perm (next.pieces ++ lost.map .lookup)

variable {d next : Draft} {loc : Location}

/-! ### Pieces -/

/-- What an edit takes out of a draft, unless another edit puts it back. -/
def removed (d : Draft) : Edit → List Piece
  | .openBlock _ _ => d.block.toList.flatMap PageBlock.pieces
  | .openLookup _ _ | .closeLookup => d.pending.map .lookup
  | .openParagraph _ => d.paragraph.toList.flatMap Paragraph.pieces
  | .closeParagraph _ => if d.paragraph.isSome then [] else Span.piecesOfAll d.spans
  | .dropSpan => Span.piecesOfAll d.spans.head?.toList
  | _ => []

/-- What an edit puts into a draft, which it does only if there is a place for it. -/
def added (d : Draft) : Edit → List Piece
  | .insert insertion =>
    match d.slot, d.block with
    | .inside _, some _ => insertion.pieces
    | _, _ => []
  | .refer reference => if d.lookup.isSome then [.lookup reference] else []
  | .attach span => if !d.spans.isEmpty || d.paragraph.isSome then span.pieces else []
  | _ => []

/-- An edit changes the pieces of a draft by what it takes out and what it puts in. -/
theorem perm_pieces_apply (d : Draft) (e : Edit) :
    (d.pieces ++ d.added e).Perm ((d.apply e).pieces ++ d.removed e) := by
  rw [List.perm_iff_count]
  intro piece
  cases e with
  | visit _ | find _ | set _ _ | setSlot _ => rfl
  | openBlock edge parity =>
    simp only [pieces, pending, apply, added, removed, Option.toList_some, List.flatMap_singleton,
      PageBlock.pieces_empty, List.count_append, List.count_nil]
    omega
  | closeBlock =>
    cases hblock : d.block with
    | none => simp [pieces, pending, Document.pieces, apply, added, removed, hblock]
    | some block =>
      have hcount := (d.document.pdf.layout.perm_pieces_add block).count_eq piece
      simp only [pieces, pending, Document.pieces, apply, added, removed, hblock,
        Option.elim_some, Option.toList_some, Option.toList_none, List.flatMap_singleton,
        List.flatMap_nil, List.count_append, List.count_nil] at hcount ⊢
      omega
  | insert insertion =>
    cases hslot : d.slot with
    | outside | rejected => simp [pieces, pending, apply, added, removed, hslot]
    | inside slot =>
      cases hblock : d.block with
      | none => simp [pieces, pending, apply, added, removed, hslot, hblock]
      | some block =>
        have hcount := (block.perm_pieces_insert slot insertion).count_eq piece
        simp only [pieces, pending, apply, added, removed, hslot, hblock, Option.map_some,
          Option.toList_some, List.flatMap_singleton, List.count_append,
          List.count_nil] at hcount ⊢
        omega
  | dateInsertions => simp [pieces, pending, Document.pieces, apply, added, removed]
  | openLookup _ _ | closeLookup => simp [pieces, pending, apply, added, removed]
  | refer reference =>
    cases hlookup : d.lookup <;> simp [pieces, pending, apply, added, removed, hlookup]
  | openParagraph style =>
    simp only [pieces, pending, apply, added, removed, Option.toList_some, List.flatMap_singleton,
      Paragraph.pieces, Paragraph.empty, Span.piecesOfAll_nil, List.count_append, List.count_nil]
    omega
  | closeParagraph version =>
    have hcount := (Span.perm_piecesOfAll_nest d.spans).count_eq piece
    cases hparagraph : d.paragraph <;>
      simp [pieces, pending, Document.pieces, Paragraph.pieces, apply, added, removed,
        hparagraph] <;>
      omega
  | openSpan style => simp [pieces, pending, apply, added, removed]
  | dropSpan =>
    cases hspans : d.spans <;> simp [pieces, pending, apply, added, removed, hspans]
    omega
  | attach span =>
    cases hspans : d.spans <;> cases hparagraph : d.paragraph <;>
      simp [pieces, pending, Paragraph.pieces, Paragraph.add, apply, added, removed, hspans,
        hparagraph] <;>
      omega

/-! ### Drafts in order -/

/-- Whether an edit leaves a draft in order. -/
def Fits (d : Draft) : Edit → Prop
  | .closeBlock => d.slot = .outside
  | .setSlot slot =>
    slot = .outside ∨ ∃ inside block, slot = .inside inside ∧ d.block = some block
  | .openLookup library inSlot => inSlot = true ∧ ∃ number, library = some number
  | .openSpan _ => ∃ paragraph, d.paragraph = some paragraph
  | _ => True

theorem InOrder.apply (h : d.InOrder) {e : Edit} (he : d.Fits e) : (d.apply e).InOrder := by
  cases e with
  | visit _ | find _ | set _ _ | dateInsertions => exact ⟨h.slot, h.spans, h.lookup⟩
  | openBlock edge parity =>
    refine ⟨h.slot.imp_right ?_, h.spans, h.lookup⟩
    rintro ⟨slot, block, hslot, -⟩
    exact ⟨slot, _, hslot, rfl⟩
  | closeBlock => exact ⟨.inl he, h.spans, h.lookup⟩
  | setSlot slot => exact ⟨he, h.spans, h.lookup⟩
  | insert insertion =>
    refine ⟨h.slot.imp_right ?_, h.spans, h.lookup⟩
    rintro ⟨slot, block, hslot, hblock⟩
    exact ⟨slot, block.insert slot insertion, hslot, by simp [Draft.apply, hslot, hblock]⟩
  | openLookup library inSlot =>
    refine ⟨h.slot, h.spans, ?_⟩
    rintro _ ⟨⟩
    exact he
  | refer reference =>
    refine ⟨h.slot, h.spans, ?_⟩
    intro frame hframe
    obtain ⟨old, hold, rfl⟩ := Option.map_eq_some_iff.mp hframe
    exact h.lookup old hold
  | closeLookup =>
    refine ⟨h.slot, h.spans, ?_⟩
    rintro _ ⟨⟩
  | openParagraph style => exact ⟨h.slot, .inr ⟨_, rfl⟩, h.lookup⟩
  | closeParagraph version => exact ⟨h.slot, .inl rfl, h.lookup⟩
  | openSpan style => exact ⟨h.slot, .inr he, h.lookup⟩
  | dropSpan =>
    refine ⟨h.slot, h.spans.imp_left fun hnil => ?_, h.lookup⟩
    simp [Draft.apply, hnil]
  | attach span =>
    refine ⟨h.slot, ?_, h.lookup⟩
    cases hspans : d.spans with
    | nil => exact .inl (by simp [Draft.apply, hspans])
    | cons parent outer =>
      obtain hnil | ⟨paragraph, hparagraph⟩ := h.spans
      · rw [hspans] at hnil
        cases hnil
      · exact .inr ⟨paragraph, by simp [Draft.apply, hspans, hparagraph]⟩

theorem Gains.trans {gained more : List Piece} {lost others : List Reference} {last : Draft}
    (h : Gains d gained lost next) (h' : Gains next more others last) :
    Gains d (gained ++ more) (lost ++ others) last where
  inOrder := h'.inOrder
  perm := by
    rw [List.perm_iff_count]
    intro piece
    have hfirst := h.perm.count_eq piece
    have hsecond := h'.perm.count_eq piece
    simp only [List.map_append, List.count_append] at hfirst hsecond ⊢
    omega

theorem InOrder.gains_refl (h : d.InOrder) : Gains d [] [] d :=
  ⟨h, .refl _⟩

theorem InOrder.gains_apply (h : d.InOrder) (e : Edit) (he : d.Fits e) {lost : List Reference}
    (hlost : d.removed e = lost.map .lookup) : Gains d (d.added e) lost (d.apply e) where
  inOrder := h.apply he
  perm := hlost ▸ d.perm_pieces_apply e

/-- What is inserted while a slot is open stays in it. -/
theorem InOrder.gains_insert (h : d.InOrder) (hslot : d.slot ≠ .outside) (insertion : Insertion) :
    Gains d insertion.pieces [] (d.apply (.insert insertion)) := by
  have hgains : Gains d (d.added (.insert insertion)) [] (d.apply (.insert insertion)) :=
    h.gains_apply (.insert insertion) trivial rfl
  obtain hout | ⟨slot, block, hinside, hblock⟩ := h.slot
  · exact absurd hout hslot
  · simpa only [added, hinside, hblock] using hgains

/-! ### Events without a fault -/

theorem Gains.addFindings {findings : List Finding} {gained : List Piece} {lost : List Reference}
    (h : Gains (d.addFindings findings) gained lost next) : Gains d gained lost next :=
  ⟨h.inOrder, h.perm⟩

theorem InOrder.gains_placeEdits (h : d.InOrder) (day : LiturgicalDay) {content : Content}
    (hclean : ∀ e ∈ d.placeEdits loc content (Resolution.ofContent day content).reference,
      e.IsClean) :
    ∃ piece, Node.Atom.Becomes day (.content content) piece ∧
      Gains d [piece] []
        (d.applyAll (d.placeEdits loc content (Resolution.ofContent day content).reference)) := by
  unfold placeEdits at hclean ⊢
  split at hclean
  next hlookup =>
    rw [if_pos hlookup]
    have hgains (reference : Reference) :
        Gains d [.lookup reference] [] (d.apply (.refer reference)) := by
      have hgains : Gains d (d.added (.refer reference)) [] (d.apply (.refer reference)) :=
        h.gains_apply (.refer reference) trivial rfl
      simpa only [added, hlookup, if_true] using hgains
    cases content with
    | relative path overrides => exact ⟨_, .relative path overrides, hgains _⟩
    | absolute path => exact ⟨_, .absolute path, hgains _⟩
    | literal | media => exact absurd hclean Edit.not_isClean_of_fault_cons
  next hlookup =>
    rw [if_neg hlookup]
    split at hclean
    next hopen =>
      rw [if_pos hopen]
      let span := Span.leaf content.style (Resolution.ofContent day content).reference
      have hgains : Gains d (d.added (.attach span)) [] (d.apply (.attach span)) :=
        h.gains_apply (.attach span) trivial rfl
      simp only [added, hopen, if_true, span, Span.pieces_leaf] at hgains
      exact ⟨_, .leaf content, hgains⟩
    next hidle =>
      rw [if_neg hidle]
      split at hclean
      · exact absurd hclean Edit.not_isClean_of_fault_cons
      next hslot =>
        rw [if_neg hslot]
        cases content with
        | literal text =>
          exact ⟨_, .literal text, h.gains_insert hslot (.literal Insertion.literalStyle text)⟩
        | relative | absolute | media => exact absurd hclean Edit.not_isClean_of_fault_cons

theorem InOrder.gains_directive (h : d.InOrder) {name : String}
    (hclean : ∀ e ∈ d.enterEdits loc (.atom (.directive name)), e.IsClean) :
    ∃ piece, Node.Atom.Becomes d.document.liturgicalDay (.directive name) piece ∧
      Gains d [piece] [] (d.applyAll (d.enterEdits loc (.atom (.directive name)))) := by
  rw [enterEdits] at hclean ⊢
  cases hinsertion : directiveInsertion? d.document.liturgicalDay.date name with
  | none =>
    rw [hinsertion] at hclean
    exact absurd hclean Edit.not_isClean_of_fault_cons
  | some insertion =>
    simp only [hinsertion] at hclean ⊢
    split at hclean
    · exact absurd hclean Edit.not_isClean_of_fault_cons
    next hslot =>
      rw [if_neg hslot]
      have hgains := h.gains_insert hslot insertion
      unfold directiveInsertion? at hinsertion
      split at hinsertion
      next hdate =>
        cases hinsertion
        exact ⟨.date, hdate ▸ .date, hgains⟩
      · split at hinsertion
        next hnumber =>
          cases hinsertion
          exact ⟨.pageNumber, hnumber ▸ .pageNumber, hgains⟩
        · cases hinsertion

theorem InOrder.gains_enterEdits (h : d.InOrder) {head : Node.Head}
    (hclean : ∀ e ∈ d.enterEdits loc head, e.IsClean) :
    ∃ gained,
      List.Forall₂ (Node.Atom.Becomes d.document.liturgicalDay)
        (Event.enter loc head).atom?.toList gained ∧
      Gains d gained (d.dropped (.enter loc head)) (d.applyAll (d.enterEdits loc head)) := by
  match head with
  | .atom (.property name value) =>
    rw [enterEdits] at hclean ⊢
    cases hset : d.setProperty name value with
    | error problem =>
      rw [hset] at hclean
      exact absurd hclean Edit.not_isClean_of_fault_cons
    | ok next => exact ⟨[], .nil, h.gains_apply (.set next.dates next.document) trivial rfl⟩
  | .atom (.directive name) =>
    obtain ⟨piece, hpiece, hgains⟩ := h.gains_directive hclean
    exact ⟨[piece], .cons hpiece .nil, hgains⟩
  | .atom (.content content) =>
    rw [enterEdits, List.forall_mem_append] at hclean
    rw [enterEdits, applyAll_append, applyAll_map_find]
    have hfound : (d.addFindings (d.leafFindings loc content)).InOrder :=
      ⟨h.slot, h.spans, h.lookup⟩
    have hplaced : ∀ e ∈ (d.addFindings (d.leafFindings loc content)).placeEdits loc content
        (Resolution.ofContent d.document.liturgicalDay content).reference, e.IsClean := hclean.2
    obtain ⟨piece, hpiece, hgains⟩ := hfound.gains_placeEdits d.document.liturgicalDay hplaced
    exact ⟨[piece], .cons hpiece .nil, hgains.addFindings⟩
  | .group .template => exact ⟨[], .nil, h.gains_refl⟩
  | .group (.pageBlock edge parity) =>
    rw [enterEdits, List.forall_mem_append, Edit.forall_isClean_faultIf] at hclean
    have hblock : d.block = none := by simpa using hclean.1
    let outside := d.apply (.setSlot .outside)
    have houtside : Gains d [] [] outside := h.gains_apply (.setSlot .outside) (.inl rfl) rfl
    have hnone : outside.removed (.openBlock edge parity) = [] := by
      change d.block.toList.flatMap PageBlock.pieces = []
      rw [hblock]
      rfl
    have hopened : Gains outside [] [] (outside.apply (.openBlock edge parity)) :=
      houtside.inOrder.gains_apply (.openBlock edge parity) trivial hnone
    rw [enterEdits, hblock]
    exact ⟨[], .nil, houtside.trans hopened⟩
  | .group (.position slot) =>
    rw [enterEdits] at hclean ⊢
    split at hclean
    · exact absurd hclean Edit.not_isClean_of_fault_cons
    next hblock =>
      rw [if_neg hblock]
      cases hread : Slot.vocabulary.read slot with
      | error cause =>
        rw [hread] at hclean
        exact absurd hclean Edit.not_isClean_of_fault_cons
      | ok inside =>
        obtain ⟨block, hblock⟩ : ∃ block, d.block = some block := by
          simpa [Option.isNone_iff_eq_none, Option.ne_none_iff_exists'] using hblock
        have hfits : d.Fits (.setSlot (.inside inside)) := .inr ⟨inside, block, rfl, hblock⟩
        exact ⟨[], .nil, h.gains_apply (.setSlot (.inside inside)) hfits rfl⟩
  | .group (.lookup number) =>
    rw [enterEdits, List.forall_mem_append, Edit.forall_isClean_faultIf] at hclean
    have hslot : d.slot ≠ .outside := by simpa using hclean.1
    cases hlibrary : library? number with
    | error problem =>
      rw [hlibrary] at hclean
      exact absurd hclean.2 Edit.not_isClean_of_fault_cons
    | ok library =>
      have hfits : d.Fits (.openLookup (some library) (d.slot ≠ .outside)) :=
        ⟨decide_eq_true hslot, library, rfl⟩
      rw [enterEdits, hlibrary, decide_eq_false hslot]
      exact ⟨[], .nil, h.gains_apply (.openLookup (some library) (d.slot ≠ .outside)) hfits rfl⟩
  | .group (.paragraph style version) =>
    rw [enterEdits, List.forall_mem_append, Edit.forall_mem_doIf] at hclean
    have hparagraph : d.paragraph = none := by
      rw [← Option.not_isSome_iff_eq_none]
      exact fun hsome => Edit.not_isClean_of_fault_cons (hclean.1 hsome)
    have hnone : d.removed (.openParagraph style) = [] := by simp [removed, hparagraph]
    rw [enterEdits, hparagraph]
    exact ⟨[], .nil, h.gains_apply (.openParagraph style) trivial hnone⟩
  | .group (.span style) =>
    rw [enterEdits, List.forall_mem_append, Edit.forall_isClean_faultIf] at hclean
    obtain ⟨paragraph, hparagraph⟩ : ∃ paragraph, d.paragraph = some paragraph := by
      simpa [Option.isNone_eq_false_iff, Option.isSome_iff_exists] using hclean.1
    rw [enterEdits, hparagraph]
    exact ⟨[], .nil, h.gains_apply (.openSpan style) ⟨paragraph, hparagraph⟩ rfl⟩

/-- A lookup that is left puts into the slot what it takes with it, if the slot is still open. -/
theorem InOrder.gains_closeLookup (h : d.InOrder) {frame : OpenLookup}
    (hlookup : d.lookup = some frame) (library : Nat) :
    Gains d [] (if d.slot = .outside then d.pending else [])
      (d.applyAll [.closeLookup,
        .insert (.lookup Insertion.lookupStyle ⟨frame.references, library⟩)]) := by
  let closed := d.apply .closeLookup
  let insertion := Insertion.lookup Insertion.lookupStyle ⟨frame.references, library⟩
  have hclosed : Gains d [] d.pending closed := h.gains_apply .closeLookup trivial rfl
  -- That the lookup was entered in a slot does not say that one is open now, and to insert
  -- anything outside a slot does nothing.
  by_cases hslot : d.slot = .outside
  · have houtside : closed.slot = .outside := hslot
    have hlost : Gains closed (closed.added (.insert insertion)) []
        (closed.apply (.insert insertion)) :=
      hclosed.inOrder.gains_apply (.insert insertion) trivial rfl
    have hgains := hclosed.trans hlost
    simp only [added, houtside, List.append_nil] at hgains
    rw [if_pos hslot]
    exact hgains
  · have hinserted := hclosed.inOrder.gains_insert hslot insertion
    have hpending : insertion.pieces = d.pending.map .lookup := by
      simp [insertion, Insertion.pieces, pending, hlookup]
    rw [if_neg hslot]
    exact ⟨hinserted.inOrder, hclosed.perm.trans (hpending ▸ hinserted.perm)⟩

/-- A span that is left goes into what it is in. -/
theorem InOrder.gains_dropSpan (h : d.InOrder) {span : Span} {outer : List Span}
    (hspans : d.spans = span :: outer) :
    Gains d [] [] (d.applyAll [.dropSpan, .attach span]) := by
  obtain hnil | ⟨paragraph, hparagraph⟩ := h.spans
  · rw [hspans] at hnil
    cases hnil
  let rest := d.apply .dropSpan
  have hdropped : d.Fits .dropSpan := trivial
  have hattached : rest.Fits (.attach span) := trivial
  have hrest : rest.InOrder := h.apply hdropped
  have hremoved : d.removed .dropSpan = span.pieces := by simp [removed, hspans]
  have hopen : rest.paragraph = some paragraph := hparagraph
  have hadded : rest.added (.attach span) = span.pieces := by simp [added, hopen]
  have htaken : (d.pieces ++ []).Perm (rest.pieces ++ span.pieces) :=
    hremoved ▸ d.perm_pieces_apply .dropSpan
  have hput : (rest.pieces ++ span.pieces).Perm ((rest.apply (.attach span)).pieces ++ []) :=
    hadded ▸ rest.perm_pieces_apply (.attach span)
  exact ⟨hrest.apply hattached, htaken.trans hput⟩

theorem InOrder.gains_exitEdits (h : d.InOrder) {head : Node.Head}
    (hclean : ∀ e ∈ d.exitEdits loc head, e.IsClean) :
    Gains d [] (d.dropped (.exit loc head)) (d.applyAll (d.exitEdits loc head)) := by
  match head with
  | .atom _ | .group .template => exact h.gains_refl
  | .group (.pageBlock edge parity) =>
    rw [exitEdits, List.forall_mem_cons] at hclean
    have hblock : d.block.isSome := by
      by_contra hnone
      rw [if_neg hnone] at hclean
      exact Edit.not_isClean_of_fault_cons hclean.2
    have houtside : Gains d [] [] (d.apply (.setSlot .outside)) :=
      h.gains_apply (.setSlot .outside) (.inl rfl) rfl
    have hclosed : Gains (d.apply (.setSlot .outside)) [] []
        ((d.apply (.setSlot .outside)).apply .closeBlock) :=
      houtside.inOrder.gains_apply .closeBlock rfl rfl
    rw [exitEdits, if_pos hblock]
    exact houtside.trans hclosed
  | .group (.position _) => exact h.gains_apply (.setSlot .outside) (.inl rfl) rfl
  | .group (.lookup _) =>
    rw [exitEdits] at hclean ⊢
    cases hlookup : d.lookup with
    | none =>
      rw [hlookup] at hclean
      exact absurd hclean Edit.not_isClean_of_fault_cons
    | some frame =>
      obtain ⟨hinSlot, library, hlibrary⟩ := h.lookup frame hlookup
      simp only [hlookup, hinSlot, hlibrary, List.forall_mem_cons] at hclean ⊢
      have hfilled : ¬frame.references.isEmpty := by
        intro hempty
        rw [if_pos hempty] at hclean
        exact Edit.not_isClean_of_fault_cons hclean.2
      rw [if_neg hfilled]
      exact h.gains_closeLookup hlookup library
  | .group (.paragraph _ version) =>
    rw [exitEdits] at hclean ⊢
    split at hclean
    · exact absurd hclean Edit.not_isClean_of_fault_cons
    next hparagraph =>
      rw [List.forall_mem_append, Edit.forall_isClean_faultIf] at hclean
      have hkept : d.removed (.closeParagraph version) = [] := by
        rw [removed, if_pos (by simpa [Option.isSome_iff_ne_none] using hparagraph)]
      rw [if_neg hparagraph, hclean.1]
      exact h.gains_apply (.closeParagraph version) trivial hkept
  | .group (.span _) =>
    rw [exitEdits] at hclean ⊢
    cases hspans : d.spans with
    | nil =>
      rw [hspans] at hclean
      exact absurd hclean Edit.not_isClean_of_fault_cons
    | cons span outer => exact h.gains_dropSpan hspans

/-- An event without a fault: what it enters becomes a piece, and nothing is lost but what it
drops. -/
theorem InOrder.gains_event (h : d.InOrder) {event : Event} (hclean : (d.event event).IsClean) :
    ∃ gained,
      List.Forall₂ (Node.Atom.Becomes d.document.liturgicalDay) event.atom?.toList gained ∧
      Gains d gained (d.dropped event) (d.event event) := by
  have hedits : ∀ e ∈ d.edits event, e.IsClean := by
    rw [event_eq] at hclean
    exact (findsOnly_applyAll_iff.mp hclean).2
  rw [event_eq]
  cases event with
  | enter loc head =>
    have hlast : Draft.InOrder { d with last := loc } := ⟨h.slot, h.spans, h.lookup⟩
    obtain ⟨gained, hgained, hgains⟩ :=
      hlast.gains_enterEdits (List.forall_mem_cons.mp hedits).2
    exact ⟨gained, hgained, hgains.inOrder, hgains.perm⟩
  | exit loc head => exact ⟨[], .nil, h.gains_exitEdits hedits⟩

theorem IsClean.of_events {events : List Event} (h : (d.events events).IsClean) : d.IsClean :=
  fun finding hfinding => h finding ((findings_prefix_events d events).subset hfinding)

/-- The references that events drop. -/
def droppedAll (d : Draft) : List Event → List Reference
  | [] => []
  | event :: events => d.dropped event ++ (d.event event).droppedAll events

/-- Events without a fault: all that they enter become pieces, and nothing is lost but what they
drop. -/
theorem InOrder.gains_events (h : d.InOrder) {events : List Event}
    (hclean : (d.events events).IsClean) :
    ∃ gained,
      List.Forall₂ (fun entered piece => entered.2.Becomes entered.1 piece)
        (d.dating.entered events) gained ∧
      Gains d gained (d.droppedAll events) (d.events events) := by
  induction events generalizing d with
  | nil => exact ⟨[], .nil, h.gains_refl⟩
  | cons event events ih =>
    obtain ⟨first, hfirst, hnext⟩ := h.gains_event (IsClean.of_events hclean)
    obtain ⟨rest, hrest, hlast⟩ := ih hnext.inOrder hclean
    refine ⟨first ++ rest, ?_, hnext.trans hlast⟩
    have hhere : List.Forall₂ (fun entered piece => entered.2.Becomes entered.1 piece)
        (event.atom?.toList.map (d.dating.day, ·)) first := List.forall₂_map_left_iff.2 hfirst
    rw [dating_event] at hrest
    exact List.rel_append hhere hrest

/-- A draft that ends without a fault has nothing open, and all there is to do is to date its
insertions. -/
theorem endEdits_of_isClean (h : ∀ e ∈ d.endEdits, e.IsClean) :
    d.lookup = none ∧ d.spans = [] ∧ d.paragraph = none ∧ d.block = none ∧
      d.endEdits = [.dateInsertions] := by
  simp only [endEdits, closingEdits, List.forall_mem_append, Edit.forall_isClean_faultIf,
    Edit.forall_mem_doIf, Edit.not_isClean_of_fault_cons, imp_false, Bool.not_eq_true] at h
  obtain ⟨⟨⟨⟨⟨hlookup, hspans⟩, hparagraph⟩, hblock⟩, hdated⟩, -⟩ := h
  refine ⟨by simpa using hlookup, by simpa using hspans, by simpa using hparagraph,
    by simpa using hblock, ?_⟩
  rw [endEdits, closingEdits, hlookup, hspans, hparagraph, hblock, hdated]
  rfl

theorem pieces_document_finish (h : d.finish.IsClean) : d.finish.document.pieces = d.pieces := by
  have hends : ∀ e ∈ d.endEdits, e.IsClean := by
    rw [finish_eq] at h
    exact (findsOnly_applyAll_iff.mp h).2
  obtain ⟨hlookup, hspans, hparagraph, hblock, hedits⟩ := endEdits_of_isClean hends
  rw [finish_eq, hedits]
  simp [apply, pieces, pending, Document.pieces, hlookup, hspans, hparagraph, hblock]

end Draft

end Typikon
