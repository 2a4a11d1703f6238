import Typikon.Proofs.Draft.Dating

/-!
Edits. Whatever is done to a draft comes down to a few edits, each of which changes one part of it.
An event and the end of a draft are lists of edits, which are settled by what the draft has open and
not by what it has found. What holds of a draft is thus shown to be kept by each edit, and what an
event cannot change is read off its edits.
-/

namespace Typikon

/-- What of a draft an edit can change. -/
inductive Part where
  | last
  | findings
  /-- The properties of the document and its date. -/
  | heading
  /-- Which headers and footers there are, closed or open. -/
  | blocks
  /-- What is in the headers and footers. -/
  | insertions
  | slot
  | lookup
  /-- The paragraphs, closed or open, and the open spans. -/
  | text
deriving DecidableEq

inductive Edit where
  | visit (loc : Location)
  | find (finding : Finding)
  /-- Takes the properties of another document, and other date properties. -/
  | set (dates : DateProperties) (document : Document)
  | openBlock (edge : PageEdge) (parity : Parity)
  | closeBlock
  | setSlot (slot : SlotState)
  /-- Puts an insertion into the open slot, if one is open. -/
  | insert (insertion : Insertion)
  /-- Dates the insertions of the headers and footers that are closed. -/
  | dateInsertions
  | openLookup (library : Option Nat) (inSlot : Bool)
  | refer (reference : Reference)
  | closeLookup
  | openParagraph (style : String)
  | closeParagraph (version : Bool)
  | openSpan (style : String)
  | dropSpan
  /-- Puts a span into what is open, if anything is. -/
  | attach (span : Span)

namespace Edit

def part : Edit → Part
  | .visit _ => .last
  | .find _ => .findings
  | .set _ _ => .heading
  | .openBlock _ _ | .closeBlock => .blocks
  | .setSlot _ => .slot
  | .insert _ | .dateInsertions => .insertions
  | .openLookup _ _ | .refer _ | .closeLookup => .lookup
  | .openParagraph _ | .closeParagraph _ | .openSpan _ | .dropSpan | .attach _ => .text

def found : Edit → List Finding
  | .find finding => [finding]
  | _ => []

def fault (loc : Location) (problem : Problem) : Edit :=
  .find (.certain loc problem)

def doIf (condition : Bool) (edits : List Edit) : List Edit :=
  if condition then edits else []

def faultIf (condition : Bool) (loc : Location) (problem : Problem) : List Edit :=
  doIf condition [fault loc problem]

theorem forall_mem_doIf {p : Edit → Prop} {condition : Bool} {edits : List Edit} :
    (∀ e ∈ doIf condition edits, p e) ↔ (condition → ∀ e ∈ edits, p e) := by
  cases condition <;> simp [doIf]

theorem forall_mem_faultIf {p : Edit → Prop} {condition : Bool} {loc : Location}
    {problem : Problem} :
    (∀ e ∈ faultIf condition loc problem, p e) ↔ (condition → p (.fault loc problem)) := by
  rw [faultIf, forall_mem_doIf, List.forall_mem_singleton]

end Edit

/-- The parts of a draft that an event can change. -/
def Event.parts : Event → List Part
  | .enter _ (.atom (.property _ _)) => [.last, .findings, .heading]
  | .enter _ (.atom (.directive _)) => [.last, .findings, .insertions]
  | .enter _ (.atom (.content _)) => [.last, .findings, .insertions, .lookup, .text]
  | .enter _ (.group .template) => [.last]
  | .enter _ (.group (.pageBlock _ _)) => [.last, .findings, .blocks, .slot]
  | .enter _ (.group (.position _)) => [.last, .findings, .slot]
  | .enter _ (.group (.lookup _)) => [.last, .findings, .lookup]
  | .enter _ (.group (.paragraph _ _)) => [.last, .findings, .text]
  | .enter _ (.group (.span _)) => [.last, .findings, .text]
  | .exit _ (.atom _) => []
  | .exit _ (.group .template) => []
  | .exit _ (.group (.pageBlock _ _)) => [.findings, .blocks, .slot]
  | .exit _ (.group (.position _)) => [.slot]
  | .exit _ (.group (.lookup _)) => [.findings, .insertions, .lookup]
  | .exit _ (.group (.paragraph _ _)) => [.findings, .text]
  | .exit _ (.group (.span _)) => [.findings, .text]

/-- The heading is for properties to change. -/
theorem Event.heading_mem_parts_iff {event : Event} :
    Part.heading ∈ event.parts ↔
      ∃ loc name value, event = .enter loc (.atom (.property name value)) := by
  unfold parts
  split <;> simp

namespace Draft

def apply (d : Draft) : Edit → Draft
  | .visit loc => { d with last := loc }
  | .find finding => { d with findings := d.findings ++ [finding] }
  | .set dates document =>
    { d with
      dates
      document := { document with
        paragraphs := d.document.paragraphs
        pdf := { document.pdf with layout := d.document.pdf.layout } } }
  | .openBlock edge parity => { d with block := some (.empty edge parity) }
  | .closeBlock =>
    { d with
      block := none
      document := { d.document with
        pdf := { d.document.pdf with
          layout := d.block.elim d.document.pdf.layout d.document.pdf.layout.add } } }
  | .setSlot slot => { d with slot }
  | .insert insertion =>
    { d with
      block := match d.slot with
        | .inside slot => d.block.map (·.insert slot insertion)
        | _ => d.block }
  | .dateInsertions =>
    { d with
      document := { d.document with
        pdf := { d.document.pdf with
          layout := d.document.pdf.layout.withDate d.document.liturgicalDay.date } } }
  | .openLookup library inSlot => { d with lookup := some ⟨library, [], inSlot⟩ }
  | .refer reference =>
    { d with
      lookup := d.lookup.map fun frame =>
        { frame with references := frame.references ++ [reference] } }
  | .closeLookup => { d with lookup := none }
  | .openParagraph style => { d with paragraph := some (.empty style) }
  | .closeParagraph version =>
    { d with
      paragraph := none
      spans := []
      document := { d.document with
        paragraphs := d.document.paragraphs ++ (d.paragraph.map fun paragraph =>
          { paragraph with
            spans := paragraph.spans ++ (Span.nest d.spans).toList
            version := if version then some Paragraph.versionSpan else none }).toList } }
  | .openSpan style => { d with spans := .empty style :: d.spans }
  | .dropSpan => { d with spans := d.spans.tail }
  | .attach span =>
    { d with
      spans := match d.spans with
        | [] => []
        | parent :: outer => parent.add span :: outer
      paragraph := match d.spans with
        | [] => d.paragraph.map (·.add span)
        | _ :: _ => d.paragraph }

def applyAll (d : Draft) (edits : List Edit) : Draft :=
  edits.foldl apply d

@[simp]
theorem applyAll_nil (d : Draft) : d.applyAll [] = d := rfl

@[simp]
theorem applyAll_cons (d : Draft) (e : Edit) (edits : List Edit) :
    d.applyAll (e :: edits) = (d.apply e).applyAll edits := rfl

@[simp]
theorem applyAll_append (d : Draft) (first second : List Edit) :
    d.applyAll (first ++ second) = (d.applyAll first).applyAll second :=
  List.foldl_append

/-- What each of some edits keeps, they all keep. -/
theorem applyAll_induction {P : Draft → Prop} {Q : Edit → Prop}
    (hstep : ∀ d e, P d → Q e → P (d.apply e)) {edits : List Edit} (hedits : ∀ e ∈ edits, Q e)
    {d : Draft} (h : P d) : P (d.applyAll edits) := by
  induction edits generalizing d with
  | nil => exact h
  | cons e edits ih =>
    obtain ⟨hfirst, hrest⟩ := List.forall_mem_cons.mp hedits
    exact ih hrest (hstep d e h hfirst)

/-- What is found about a leaf itself, wherever it is put. -/
def leafFindings (d : Draft) (loc : Location) (content : Content) : List Finding :=
  let overrides := match content with
    | .relative _ overrides => overrides
    | _ => []
  let at? (kind : OverrideKind) := (Override.last? overrides kind).map Override.location
  Finding.ofResolution loc (at? .mode) (at? .day)
    (Resolution.ofContent d.document.liturgicalDay content)

/-- Where a resolved leaf is put. -/
def placeEdits (d : Draft) (loc : Location) (content : Content) (reference : Reference) :
    List Edit :=
  if d.lookup.isSome then
    match content with
    | .relative _ _ | .absolute _ => [.refer reference]
    | .literal _ | .media _ => [.fault loc .unfitForLookup]
  else if !d.spans.isEmpty || d.paragraph.isSome then [.attach (.leaf content.style reference)]
  else if d.slot = .outside then [.fault loc (.leafOutsideParagraph content.raw)]
  else
    match content with
    | .literal text => [.insert (.literal Insertion.literalStyle text)]
    | _ => [.fault loc .unfitForSlot]

def enterEdits (d : Draft) (loc : Location) : Node.Head → List Edit
  | .atom (.property name value) =>
    match d.setProperty name value with
    | .ok next => [.set next.dates next.document]
    | .error problem => [.fault loc problem]
  | .atom (.directive name) =>
    match directiveInsertion? d.document.liturgicalDay.date name with
    | none => [.fault loc (.unknownDirective name)]
    | some insertion =>
      if d.slot = .outside then [.fault loc (.directiveOutsideSlot name)] else [.insert insertion]
  | .atom (.content content) =>
    (d.leafFindings loc content).map .find ++
      d.placeEdits loc content (Resolution.ofContent d.document.liturgicalDay content).reference
  | .group .template => []
  | .group (.pageBlock edge parity) =>
    Edit.faultIf d.block.isSome loc .blockWithinBlock ++ [.setSlot .outside, .openBlock edge parity]
  | .group (.position slot) =>
    if d.block.isNone then [.fault loc (.slotOutsideBlock slot), .setSlot .rejected]
    else
      match Slot.vocabulary.read slot with
      | .ok slot => [.setSlot (.inside slot)]
      | .error cause => [.fault loc (.keyword cause), .setSlot .rejected]
  | .group (.lookup number) =>
    Edit.faultIf (d.slot = .outside) loc .lookupOutsideSlot ++
      match library? number with
      | .ok library => [.openLookup (some library) (d.slot ≠ .outside)]
      | .error problem => [.fault loc problem, .openLookup none (d.slot ≠ .outside)]
  | .group (.paragraph style _) =>
    Edit.doIf d.paragraph.isSome [.fault loc .paragraphWithinParagraph, .closeParagraph false] ++
      [.openParagraph style]
  | .group (.span style) =>
    Edit.faultIf d.paragraph.isNone loc (.spanOutsideParagraph style) ++ [.openSpan style]

def exitEdits (d : Draft) (loc : Location) : Node.Head → List Edit
  | .atom _ => []
  | .group .template => []
  | .group (.pageBlock _ _) =>
    .setSlot .outside ::
      if d.block.isSome then [.closeBlock] else [.fault loc .blockEndsUnbegun]
  | .group (.position _) => [.setSlot .outside]
  | .group (.lookup _) =>
    match d.lookup with
    | none => [.fault loc .lookupEndsUnbegun]
    | some frame =>
      .closeLookup ::
        if frame.references.isEmpty then [.fault loc .lookupEmpty]
        else
          match frame.library, frame.inSlot with
          | some library, true =>
            [.insert (.lookup Insertion.lookupStyle ⟨frame.references, library⟩)]
          | _, _ => []
  | .group (.paragraph _ version) =>
    if d.paragraph.isNone then [.fault loc .paragraphEndsUnbegun]
    else
      Edit.faultIf (!d.spans.isEmpty) loc .spanOutlastsParagraph ++ [.closeParagraph version]
  | .group (.span _) =>
    match d.spans with
    | [] => [.fault loc .spanEndsUnbegun]
    | span :: _ => [.dropSpan, .attach span]

/-- The edits that an event makes. -/
def edits (d : Draft) : Event → List Edit
  | .enter loc head => .visit loc :: enterEdits { d with last := loc } loc head
  | .exit loc head => d.exitEdits loc head

/-- The edits that close what is still open after the last node. -/
def closingEdits (d : Draft) : List Edit :=
  Edit.faultIf d.lookup.isSome d.last .lookupUnended ++
    Edit.faultIf (!d.spans.isEmpty) d.last .spanUnended ++
    Edit.doIf d.paragraph.isSome [.fault d.last .paragraphUnended, .closeParagraph false] ++
    Edit.doIf d.block.isSome [.fault d.last .blockUnended, .closeBlock]

/-- The edits that end a draft. -/
def endEdits (d : Draft) : List Edit :=
  d.closingEdits ++ Edit.faultIf d.isUndatedService .start .serviceWithoutDate ++
    [.dateInsertions]

/-! ### What is done to a draft is its edits -/

variable (d : Draft) (loc : Location)

theorem applyAll_faultIf (condition : Bool) (problem : Problem) :
    d.applyAll (Edit.faultIf condition loc problem) = d.reportIf condition loc problem := by
  cases condition <;> rfl

theorem applyAll_map_find (findings : List Finding) :
    d.applyAll (findings.map .find) = d.addFindings findings := by
  induction findings generalizing d with
  | nil => simp [addFindings]
  | cons finding findings ih =>
    rw [List.map_cons, applyAll_cons, ih]
    simp [apply, addFindings]

theorem apply_insert (insertion : Insertion) :
    d.apply (.insert insertion) = d.insert insertion := by
  obtain ⟨document, reference, dates, paragraph, spans, block, slot, lookup, last, findings⟩ := d
  cases slot <;> cases block <;> rfl

theorem apply_attach (span : Span) : d.apply (.attach span) = (d.attach? span).getD d := by
  obtain ⟨document, reference, dates, paragraph, spans, block, slot, lookup, last, findings⟩ := d
  cases spans <;> cases paragraph <;> rfl

theorem isSome_attach? (span : Span) :
    (d.attach? span).isSome = (!d.spans.isEmpty || d.paragraph.isSome) := by
  unfold attach?
  cases d.spans <;> cases d.paragraph <;> rfl

theorem apply_closeParagraph (version : Bool) :
    d.apply (.closeParagraph version) = d.closeParagraph version := by
  unfold closeParagraph
  cases hparagraph : d.paragraph <;> simp [apply, hparagraph]

theorem apply_closeBlock {d : Draft} {block : PageBlock} (h : d.block = some block) :
    d.apply .closeBlock = d.closeBlock block := by
  simp [apply, closeBlock, h]

theorem property_eq (name : String) (value : Value) :
    d.property loc name value = d.applyAll (d.enterEdits loc (.atom (.property name value))) := by
  rw [enterEdits]
  cases hset : d.setProperty name value with
  | error problem => exact property_eq_of_error hset loc
  | ok next =>
    obtain ⟨hrest, hparagraphs, hlayout⟩ := sameFrame_setProperty hset
    rw [property_eq_of_ok hset, applyAll_cons, apply, ← hparagraphs, ← hlayout]
    exact hrest

theorem place_eq (content : Content) (reference : Reference) :
    d.place loc content reference = d.applyAll (d.placeEdits loc content reference) := by
  unfold place placeEdits
  cases hlookup : d.lookup with
  | some frame =>
    rw [if_pos Option.isSome_some]
    cases content with
    | relative _ _ | absolute _ => rw [applyAll_cons, apply, hlookup]; rfl
    | literal _ | media _ => rfl
  | none =>
    have happly := d.apply_attach (.leaf content.style reference)
    rw [← d.isSome_attach? (.leaf content.style reference), Option.isSome_none,
      if_neg Bool.false_ne_true]
    cases hattach : d.attach? (.leaf content.style reference) with
    | some next =>
      rw [if_pos Option.isSome_some, applyAll_cons, happly, hattach]
      rfl
    | none =>
      rw [Option.isSome_none, if_neg Bool.false_ne_true]
      dsimp only
      split
      · rfl
      · cases content with
        | literal text => exact (d.apply_insert _).symm
        | relative _ _ | absolute _ | media _ => rfl

theorem leaf_eq (content : Content) :
    d.leaf loc content = d.applyAll (d.enterEdits loc (.atom (.content content))) := by
  rw [enterEdits, applyAll_append, applyAll_map_find]
  exact place_eq _ loc content _

theorem directive_eq (name : String) :
    d.directive loc name = d.applyAll (d.enterEdits loc (.atom (.directive name))) := by
  rw [directive, enterEdits]
  cases directiveInsertion? d.document.liturgicalDay.date name with
  | none => rfl
  | some insertion =>
    dsimp only
    split
    · rfl
    · exact (d.apply_insert insertion).symm

theorem enterBlock_eq (edge : PageEdge) (parity : Parity) :
    d.enterBlock loc edge parity =
      d.applyAll (d.enterEdits loc (.group (.pageBlock edge parity))) := by
  rw [enterEdits, applyAll_append, applyAll_faultIf]
  rfl

theorem exitBlock_eq (edge : PageEdge) (parity : Parity) :
    d.exitBlock loc = d.applyAll (d.exitEdits loc (.group (.pageBlock edge parity))) := by
  rw [exitBlock, exitEdits, applyAll_cons]
  cases hblock : d.block with
  | some block => exact (apply_closeBlock (d := d.apply (.setSlot .outside)) hblock).symm
  | none => rfl

theorem enterPosition_eq (slot : String) :
    d.enterPosition loc slot = d.applyAll (d.enterEdits loc (.group (.position slot))) := by
  rw [enterPosition, enterEdits]
  split
  · rfl
  · cases Slot.vocabulary.read slot <;> rfl

theorem enterLookup_eq (number : Option Int) :
    d.enterLookup loc number = d.applyAll (d.enterEdits loc (.group (.lookup number))) := by
  rw [enterLookup, enterEdits, applyAll_append, applyAll_faultIf, decide_not, Bool.not_not]
  cases library? number <;> rfl

theorem exitLookup_eq (number : Option Int) :
    d.exitLookup loc = d.applyAll (d.exitEdits loc (.group (.lookup number))) := by
  rw [exitLookup, exitEdits]
  cases d.lookup with
  | none => rfl
  | some frame =>
    obtain ⟨library, references, inSlot⟩ := frame
    cases references with
    | nil => rfl
    | cons first rest =>
      cases library with
      | none => rfl
      | some library =>
        cases inSlot with
        | true => exact (apply_insert (d.apply .closeLookup) _).symm
        | false => rfl

theorem enterParagraph_eq (style : String) (version : Bool) :
    d.enterParagraph loc style =
      d.applyAll (d.enterEdits loc (.group (.paragraph style version))) := by
  rw [enterParagraph, enterEdits, applyAll_append, Edit.doIf]
  split
  · rw [← apply_closeParagraph]
    rfl
  · rfl

theorem exitParagraph_eq (style : String) (version : Bool) :
    d.exitParagraph loc version =
      d.applyAll (d.exitEdits loc (.group (.paragraph style version))) := by
  rw [exitParagraph, exitEdits]
  split
  · rfl
  · rw [applyAll_append, applyAll_faultIf]
    exact (apply_closeParagraph _ version).symm

theorem enterSpan_eq (style : String) :
    d.enterSpan loc style = d.applyAll (d.enterEdits loc (.group (.span style))) := by
  rw [enterEdits, applyAll_append, applyAll_faultIf]
  rfl

theorem exitSpan_eq (style : String) :
    d.exitSpan loc = d.applyAll (d.exitEdits loc (.group (.span style))) := by
  rw [exitSpan, exitEdits]
  cases hspans : d.spans with
  | nil => rfl
  | cons span outer =>
    dsimp only
    rw [applyAll_cons, apply, hspans]
    exact (apply_attach _ span).symm

/-- What an event does to a draft is its edits. -/
theorem event_eq (event : Event) : d.event event = d.applyAll (d.edits event) := by
  match event with
  | .enter loc (.atom (.property name value)) => exact property_eq { d with last := loc } loc _ _
  | .enter loc (.atom (.directive name)) => exact directive_eq { d with last := loc } loc name
  | .enter loc (.atom (.content content)) => exact leaf_eq { d with last := loc } loc content
  | .enter loc (.group .template) => rfl
  | .enter loc (.group (.pageBlock edge parity)) =>
    exact enterBlock_eq { d with last := loc } loc edge parity
  | .enter loc (.group (.position slot)) => exact enterPosition_eq { d with last := loc } loc slot
  | .enter loc (.group (.lookup number)) => exact enterLookup_eq { d with last := loc } loc number
  | .enter loc (.group (.paragraph style version)) =>
    exact enterParagraph_eq { d with last := loc } loc style version
  | .enter loc (.group (.span style)) => exact enterSpan_eq { d with last := loc } loc style
  | .exit loc (.atom _) | .exit loc (.group .template) => rfl
  | .exit loc (.group (.pageBlock edge parity)) => exact d.exitBlock_eq loc edge parity
  | .exit loc (.group (.position _)) => rfl
  | .exit loc (.group (.lookup number)) => exact d.exitLookup_eq loc number
  | .exit loc (.group (.paragraph style version)) => exact d.exitParagraph_eq loc style version
  | .exit loc (.group (.span style)) => exact d.exitSpan_eq loc style

theorem closeAll_eq : d.closeAll = d.applyAll d.closingEdits := by
  obtain ⟨document, reference, dates, paragraph, spans, block, slot, lookup, last, findings⟩ := d
  unfold closeAll closingEdits
  cases lookup <;> cases spans <;> cases paragraph <;> cases block <;> rfl

/-! ### What edits leave alone -/

/-- A view of a draft that only edits of some parts can change. -/
def IsViewOf {α : Type} (view : Draft → α) (parts : List Part) : Prop :=
  ∀ (d : Draft) (e : Edit), e.part ∉ parts → view (d.apply e) = view d

theorem part_mem_placeEdits (content : Content) (reference : Reference) :
    ∀ e ∈ d.placeEdits loc content reference,
      e.part ∈ [Part.findings, .insertions, .lookup, .text] := by
  unfold placeEdits
  (repeat' split) <;> simp [Edit.part, Edit.fault]

theorem part_mem_parts (event : Event) : ∀ e ∈ d.edits event, e.part ∈ event.parts := by
  match event with
  | .enter loc (.atom (.content content)) =>
    have hfound : ∀ finding ∈ leafFindings { d with last := loc } loc content,
        (Edit.find finding).part ∈ (Event.enter loc (.atom (.content content))).parts := by
      simp [Edit.part, Event.parts]
    have hplaced (reference : Reference) :
        ∀ e ∈ placeEdits { d with last := loc } loc content reference,
          e.part ∈ (Event.enter loc (.atom (.content content))).parts := by
      intro e he
      exact List.mem_cons_of_mem Part.last (part_mem_placeEdits _ loc content reference e he)
    rw [edits, enterEdits, List.forall_mem_cons, List.forall_mem_append, List.forall_mem_map]
    exact ⟨List.mem_cons_self, hfound, hplaced _⟩
  | .enter loc (.atom (.property _ _)) | .enter loc (.atom (.directive _))
  | .enter loc (.group .template) | .enter loc (.group (.pageBlock _ _))
  | .enter loc (.group (.position _)) | .enter loc (.group (.lookup _))
  | .enter loc (.group (.paragraph _ _)) | .enter loc (.group (.span _)) =>
    simp only [edits, enterEdits, Edit.faultIf, Edit.doIf]
    (repeat' split) <;> simp [Edit.part, Event.parts, Edit.fault]
  | .exit loc (.atom _) | .exit loc (.group .template)
  | .exit loc (.group (.pageBlock _ _)) | .exit loc (.group (.position _))
  | .exit loc (.group (.lookup _)) | .exit loc (.group (.paragraph _ _))
  | .exit loc (.group (.span _)) =>
    simp only [edits, exitEdits, Edit.faultIf, Edit.doIf]
    (repeat' split) <;> simp [Edit.part, Event.parts, Edit.fault]

namespace IsViewOf

variable {α : Type} {view : Draft → α} {parts : List Part}

theorem applyAll_eq (hview : IsViewOf view parts) {edits : List Edit}
    (h : ∀ e ∈ edits, e.part ∉ parts) (d : Draft) : view (d.applyAll edits) = view d := by
  have hstep (next : Draft) (e : Edit) (hnext : view next = view d) (he : e.part ∉ parts) :
      view (next.apply e) = view d := (hview next e he).trans hnext
  exact applyAll_induction hstep h rfl

/-- An event leaves alone what it changes no part of. -/
theorem event_eq (hview : IsViewOf view parts) {event : Event}
    (h : ∀ part ∈ event.parts, part ∉ parts) (d : Draft) : view (d.event event) = view d := by
  rw [d.event_eq]
  exact hview.applyAll_eq (fun e he => h e.part (d.part_mem_parts event e he)) d

theorem event_eq_of_not_mem {part : Part} (hview : IsViewOf view [part]) {event : Event}
    (h : part ∉ event.parts) (d : Draft) : view (d.event event) = view d := by
  refine hview.event_eq (fun other hother hmem => h ?_) d
  rwa [← List.mem_singleton.mp hmem]

end IsViewOf

theorem isViewOf_slot : IsViewOf slot [.slot] := by
  intro d e he
  cases e <;> first | rfl | exact absurd (List.mem_singleton_self _) he

theorem isViewOf_isUndatedService : IsViewOf isUndatedService [.heading] := by
  intro d e he
  cases e <;> first | rfl | exact absurd (List.mem_singleton_self _) he

theorem part_mem_endEdits :
    ∀ e ∈ d.endEdits, e.part ∈ [Part.findings, .blocks, .insertions, .text] := by
  simp only [endEdits, closingEdits, Edit.faultIf, Edit.doIf]
  (repeat' split) <;> simp [Edit.part, Edit.fault]

theorem isUndatedService_closeAll : d.closeAll.isUndatedService = d.isUndatedService := by
  have hparts : ∀ part ∈ [Part.findings, .blocks, .insertions, .text], part ∉ [Part.heading] := by
    decide
  rw [closeAll_eq]
  refine isViewOf_isUndatedService.applyAll_eq (fun e he => hparts e.part ?_) d
  exact d.part_mem_endEdits e (List.mem_append_left _ (List.mem_append_left _ he))

/-- What ends a draft is its last edits. -/
theorem finish_eq : d.finish = d.applyAll d.endEdits := by
  rw [endEdits, applyAll_append, applyAll_append, ← closeAll_eq, applyAll_faultIf,
    ← isUndatedService_closeAll]
  rfl

theorem IsViewOf.finish_eq {α : Type} {view : Draft → α} {parts : List Part}
    (hview : IsViewOf view parts)
    (h : ∀ part ∈ [Part.findings, .blocks, .insertions, .text], part ∉ parts) (d : Draft) :
    view d.finish = view d := by
  rw [d.finish_eq]
  exact hview.applyAll_eq (fun e he => h e.part (d.part_mem_endEdits e he)) d

end Draft

end Typikon
