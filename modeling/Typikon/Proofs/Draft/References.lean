import Typikon.Proofs.Document.References
import Typikon.Proofs.Draft.Leaves

/-!
Where the references of a draft come from. Each is that of a leaf that has been entered, resolved
for the day that was in force then, or tells the version of a paragraph. Nothing that follows a leaf
changes its reference.
-/

namespace Typikon

/-- The reference that every version is told with. -/
def Paragraph.versionReference : Reference :=
  .absolute "properties/version.designation"

/-- The references that an edit brings into a draft. -/
def Edit.references : Edit → List Reference
  | .insert insertion => insertion.references
  | .refer reference => [reference]
  | .closeParagraph version => if version then [Paragraph.versionReference] else []
  | .attach span => span.references
  | _ => []

namespace Draft

/-- All references of a draft, those still open included, are of one kind. -/
structure RefersOnly (p : Reference → Prop) (d : Draft) : Prop where
  paragraphs : ∀ r ∈ d.document.references, p r
  layout : ∀ insertion ∈ d.document.pdf.layout.insertions, ∀ r ∈ insertion.references, p r
  paragraph : ∀ paragraph ∈ d.paragraph, ∀ r ∈ paragraph.references, p r
  spans : ∀ r ∈ Span.referencesOfAll d.spans, p r
  block : ∀ block ∈ d.block, ∀ insertion ∈ block.insertions, ∀ r ∈ insertion.references, p r
  lookup : ∀ frame ∈ d.lookup, ∀ r ∈ frame.references, p r

theorem document_reportIf (d : Draft) (condition : Bool) (loc : Location) (problem : Problem) :
    (d.reportIf condition loc problem).document = d.document := by
  cases condition <;> rfl

/-- In the end all dates are those of the liturgical day that the document has then. -/
theorem layout_finish (d : Draft) :
    d.finish.document.pdf.layout =
      d.closeAll.document.pdf.layout.withDate d.finish.document.liturgicalDay.date := by
  simp only [finish, document_reportIf]

namespace RefersOnly

variable {p : Reference → Prop} {d : Draft} {loc : Location}

theorem document (h : d.RefersOnly p) : ∀ r ∈ d.document.allReferences, p r := by
  intro r hr
  rcases List.mem_append.1 hr with hparagraphs | hlayout
  · exact h.paragraphs r hparagraphs
  · obtain ⟨insertion, hinsertion, hmem⟩ := List.mem_flatMap.1 hlayout
    exact h.layout insertion hinsertion r hmem

theorem insert (h : d.RefersOnly p) {insertion : Insertion}
    (hinsertion : ∀ r ∈ insertion.references, p r) :
    (d.apply (.insert insertion)).RefersOnly p := by
  refine { h with block := ?_ }
  intro block hblock other hother
  cases hslot : d.slot with
  | outside | rejected =>
    simp only [apply, hslot] at hblock
    exact h.block block hblock other hother
  | inside slot =>
    simp only [apply, hslot] at hblock
    obtain ⟨old, hold, rfl⟩ := Option.map_eq_some_iff.mp hblock
    rcases PageBlock.mem_insertions_insert.mp hother with hin | rfl
    · exact h.block old hold other hin
    · exact hinsertion

theorem closeBlock (h : d.RefersOnly p) : (d.apply .closeBlock).RefersOnly p := by
  refine { h with layout := ?_, block := nofun }
  cases hblock : d.block with
  | none =>
    simp only [apply, hblock]
    exact h.layout
  | some block =>
    simp only [apply, hblock]
    intro insertion hinsertion
    rcases PageLayout.mem_insertions_add.mp hinsertion with hold | hnew
    · exact h.layout insertion hold
    · exact h.block block hblock insertion hnew

theorem dateInsertions (h : d.RefersOnly p) : (d.apply .dateInsertions).RefersOnly p := by
  refine { h with layout := ?_ }
  simp only [apply, PageLayout.insertions_withDate]
  intro insertion hinsertion
  obtain ⟨undated, hundated, rfl⟩ := List.mem_map.mp hinsertion
  rw [Insertion.references_withDate]
  exact h.layout undated hundated

theorem openLookup (h : d.RefersOnly p) (library : Option Nat) (inSlot : Bool) :
    (d.apply (.openLookup library inSlot)).RefersOnly p := by
  refine { h with lookup := ?_ }
  rintro _ ⟨⟩
  exact List.forall_mem_nil p

theorem refer (h : d.RefersOnly p) {reference : Reference} (hreference : p reference) :
    (d.apply (.refer reference)).RefersOnly p := by
  refine { h with lookup := ?_ }
  intro frame hframe
  obtain ⟨old, hold, rfl⟩ := Option.map_eq_some_iff.mp hframe
  rw [List.forall_mem_append, List.forall_mem_singleton]
  exact ⟨h.lookup old hold, hreference⟩

theorem openParagraph (h : d.RefersOnly p) (style : String) :
    (d.apply (.openParagraph style)).RefersOnly p := by
  refine { h with paragraph := ?_ }
  rintro _ ⟨⟩
  simp [Paragraph.empty, Paragraph.references]

theorem closeParagraph (h : d.RefersOnly p) {version : Bool}
    (hversion : ∀ r ∈ (Edit.closeParagraph version).references, p r) :
    (d.apply (.closeParagraph version)).RefersOnly p := by
  have hnone : ∀ r ∈ Span.referencesOfAll [], p r := by simp
  cases hparagraph : d.paragraph with
  | none =>
    refine { h with paragraphs := ?_, paragraph := nofun, spans := hnone }
    simp only [apply, hparagraph, Option.map_none, Option.toList_none, List.append_nil]
    exact h.paragraphs
  | some paragraph =>
    refine { h with paragraphs := ?_, paragraph := nofun, spans := hnone }
    intro r hr
    have hmem : r ∈ d.document.references ∨ r ∈ Span.referencesOfAll paragraph.spans ∨
        r ∈ Span.referencesOfAll (Span.nest d.spans).toList ∨
        r ∈ Span.referencesOfAll (if version then some Paragraph.versionSpan else none).toList := by
      simpa [apply, hparagraph, Document.references, Paragraph.references] using hr
    rcases hmem with hold | hparagraphSpan | hspan | hversionSpan
    · exact h.paragraphs r hold
    · exact h.paragraph paragraph hparagraph r (List.mem_append_left _ hparagraphSpan)
    · exact h.spans r (Span.mem_referencesOfAll_nest d.spans hspan)
    · refine hversion r ?_
      cases version with
      | true =>
        simpa [Edit.references, Paragraph.versionSpan, Paragraph.versionReference]
          using hversionSpan
      | false => simp at hversionSpan

theorem openSpan (h : d.RefersOnly p) (style : String) :
    (d.apply (.openSpan style)).RefersOnly p := by
  refine { h with spans := ?_ }
  intro r hr
  exact h.spans r (by simpa [apply] using hr)

theorem dropSpan (h : d.RefersOnly p) : (d.apply .dropSpan).RefersOnly p := by
  refine { h with spans := ?_ }
  have hspans := h.spans
  cases hopen : d.spans with
  | nil => simp [apply, hopen]
  | cons span outer =>
    rw [hopen, Span.referencesOfAll_cons, List.forall_mem_append] at hspans
    simp only [apply, hopen]
    exact hspans.2

theorem attach (h : d.RefersOnly p) {span : Span} (hspan : ∀ r ∈ span.references, p r) :
    (d.apply (.attach span)).RefersOnly p := by
  have hspans := h.spans
  cases hopen : d.spans with
  | cons parent outer =>
    rw [hopen, Span.referencesOfAll_cons, List.forall_mem_append] at hspans
    refine { h with paragraph := ?_, spans := ?_ }
    · simp only [apply, hopen]
      exact h.paragraph
    · simp only [apply, hopen, Span.referencesOfAll_cons, Span.references_add,
        List.forall_mem_append]
      exact ⟨⟨hspans.1, hspan⟩, hspans.2⟩
  | nil =>
    refine { h with paragraph := ?_, spans := by simp [apply, hopen] }
    simp only [apply, hopen]
    intro paragraph hparagraph
    obtain ⟨old, hold, rfl⟩ := Option.map_eq_some_iff.mp hparagraph
    have holds := h.paragraph old hold
    simp only [Paragraph.references, Paragraph.add, Span.referencesOfAll_append,
      Span.referencesOfAll_cons, Span.referencesOfAll_nil, List.append_nil,
      List.forall_mem_append] at holds ⊢
    exact ⟨⟨holds.1, hspan⟩, holds.2⟩

theorem apply (h : d.RefersOnly p) {e : Edit} (he : ∀ r ∈ e.references, p r) :
    (d.apply e).RefersOnly p := by
  cases e with
  | visit _ | find _ | set _ _ | setSlot _ => exact { h with }
  | closeLookup => exact { h with lookup := nofun }
  | openBlock edge parity =>
    refine { h with block := ?_ }
    rintro _ ⟨⟩ insertion hinsertion
    cases hinsertion
  | closeBlock => exact h.closeBlock
  | insert insertion => exact h.insert he
  | dateInsertions => exact h.dateInsertions
  | openLookup library inSlot => exact h.openLookup library inSlot
  | refer reference => exact h.refer (List.forall_mem_singleton.mp he)
  | openParagraph style => exact h.openParagraph style
  | closeParagraph version => exact h.closeParagraph he
  | openSpan style => exact h.openSpan style
  | dropSpan => exact h.dropSpan
  | attach span => exact h.attach he

theorem applyAll (h : d.RefersOnly p) {edits : List Edit}
    (hedits : ∀ e ∈ edits, ∀ r ∈ e.references, p r) : (d.applyAll edits).RefersOnly p :=
  applyAll_induction (fun _ _ hnext he => hnext.apply he) hedits h

theorem references_closeParagraph (hversion : p Paragraph.versionReference) (version : Bool) :
    ∀ r ∈ (Edit.closeParagraph version).references, p r := by
  cases version with
  | true => exact List.forall_mem_singleton.mpr hversion
  | false => exact List.forall_mem_nil p

theorem references_of_directiveInsertion?_eq_some {today : CivilDate} {name : String}
    {insertion : Insertion} (h : directiveInsertion? today name = some insertion) :
    insertion.references = [] := by
  unfold directiveInsertion? at h
  split at h
  · cases h
    rfl
  · split at h <;> cases h
    rfl

/-- All that is brought in where a node is entered is the reference of a leaf, or of a version. -/
theorem references_enter (d : Draft) (hversion : p Paragraph.versionReference) {head : Node.Head}
    (hleaves : ∀ leaf ∈ d.dating.leaves [(loc, head)], p leaf.resolution.reference) :
    ∀ e ∈ d.edits (.enter loc head), ∀ r ∈ e.references, p r := by
  have hnil := List.forall_mem_nil p
  rw [edits, List.forall_mem_cons]
  refine ⟨hnil, ?_⟩
  cases head with
  | atom a =>
    cases a with
    | content content =>
      have hleaf : p (Resolution.ofContent d.document.liturgicalDay content).reference :=
        hleaves ⟨loc, d.document.liturgicalDay, content⟩ List.mem_cons_self
      rw [enterEdits, List.forall_mem_append, List.forall_mem_map]
      refine ⟨fun _ _ => hnil, ?_⟩
      unfold placeEdits
      (repeat' split) <;> rw [List.forall_mem_singleton]
      all_goals first | exact hnil | simpa [Edit.references] using hleaf
    | directive name =>
      rw [enterEdits]
      split
      · exact List.forall_mem_singleton.mpr hnil
      next insertion hinsertion =>
        have hnone := references_of_directiveInsertion?_eq_some hinsertion
        split <;> simp [Edit.references, Edit.fault, hnone]
    | property name value =>
      rw [enterEdits]
      split <;> simp [Edit.references, Edit.fault]
  | group g =>
    cases g with
    | paragraph style version =>
      rw [enterEdits, List.forall_mem_append, Edit.forall_mem_doIf, List.forall_mem_cons,
        List.forall_mem_singleton, List.forall_mem_singleton]
      exact ⟨fun _ => ⟨hnil, references_closeParagraph hversion false⟩, hnil⟩
    | template | pageBlock | position | lookup | span =>
      simp only [enterEdits, Edit.faultIf, Edit.doIf]
      (repeat' split) <;> simp [Edit.references, Edit.fault]

/-- All that is brought in where a node is left was open there, or is the reference of a version. -/
theorem references_exit (h : d.RefersOnly p) (hversion : p Paragraph.versionReference)
    (head : Node.Head) : ∀ e ∈ d.exitEdits loc head, ∀ r ∈ e.references, p r := by
  have hnil := List.forall_mem_nil p
  unfold exitEdits
  split
  · exact List.forall_mem_nil _
  · exact List.forall_mem_nil _
  · split <;> simp [Edit.references, Edit.fault]
  · exact List.forall_mem_singleton.mpr hnil
  · split
    · exact List.forall_mem_singleton.mpr hnil
    next frame hframe =>
      rw [List.forall_mem_cons]
      refine ⟨hnil, ?_⟩
      split
      · exact List.forall_mem_singleton.mpr hnil
      · split
        · exact List.forall_mem_singleton.mpr (h.lookup frame hframe)
        · exact List.forall_mem_nil _
  next version =>
    split
    · exact List.forall_mem_singleton.mpr hnil
    · rw [List.forall_mem_append, Edit.forall_mem_faultIf, List.forall_mem_singleton]
      exact ⟨fun _ => hnil, references_closeParagraph hversion version⟩
  · split
    · exact List.forall_mem_singleton.mpr hnil
    next span outer hspans =>
      have hopen := h.spans
      rw [hspans, Span.referencesOfAll_cons, List.forall_mem_append] at hopen
      rw [List.forall_mem_cons, List.forall_mem_singleton]
      exact ⟨hnil, hopen.1⟩

/-- The references of a draft are of one kind if those of all leaves that it has entered are, and so
is that of the version. -/
theorem events (h : d.RefersOnly p) (hversion : p Paragraph.versionReference)
    {events : List Event}
    (hleaves : ∀ leaf ∈ d.dating.leaves (events.filterMap Event.entered?),
      p leaf.resolution.reference) : (d.events events).RefersOnly p := by
  induction events generalizing d with
  | nil => exact h
  | cons event events ih =>
    rw [events_cons]
    cases event with
    | exit loc head =>
      refine ih ?_ ?_
      · rw [event_eq]
        exact h.applyAll (h.references_exit hversion head)
      · rw [Draft.dating_event]
        exact hleaves
    | enter loc head =>
      have hentered : (Event.enter loc head :: events).filterMap Event.entered? =
          [(loc, head)] ++ events.filterMap Event.entered? := rfl
      rw [hentered, Dating.leaves_append, List.forall_mem_append] at hleaves
      refine ih ?_ ?_
      · rw [event_eq]
        exact h.applyAll (references_enter d hversion hleaves.1)
      · rw [Draft.dating_event, Dating.afterEvent_enter]
        exact hleaves.2

theorem finish (h : d.RefersOnly p) (hversion : p Paragraph.versionReference) :
    d.finish.RefersOnly p := by
  have hnil := List.forall_mem_nil p
  have hclosing : ∀ e ∈ d.closingEdits, ∀ r ∈ e.references, p r := by
    simp only [closingEdits, List.forall_mem_append, Edit.forall_mem_faultIf, Edit.forall_mem_doIf,
      List.forall_mem_cons]
    exact ⟨⟨⟨fun _ => hnil, fun _ => hnil⟩,
      fun _ => ⟨hnil, references_closeParagraph hversion false, List.forall_mem_nil _⟩⟩,
      fun _ => ⟨hnil, hnil, List.forall_mem_nil _⟩⟩
  rw [finish_eq]
  refine h.applyAll ?_
  rw [endEdits, List.forall_mem_append, List.forall_mem_append, Edit.forall_mem_faultIf,
    List.forall_mem_singleton]
  exact ⟨⟨hclosing, fun _ => hnil⟩, hnil⟩

end RefersOnly

end Draft

end Typikon
