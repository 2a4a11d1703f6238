import Typikon.Proofs.Draft.Edits

/-!
The body of a draft: its paragraphs, closed or open, the open spans, and what decides where a leaf
goes and what it comes to. What an event does to the body depends on the body alone, so a draft can
be followed through any events by its body. What stands in headers and footers leaves the body
alone, except that a lookup keeps leaves out of it.
-/

namespace Typikon

namespace Span

def addAll : Span → List Span → Span
  | ⟨style, children, reference⟩, more => ⟨style, children ++ more, reference⟩

theorem add_eq_addAll (span child : Span) : span.add child = span.addAll [child] := by
  cases span
  rfl

@[simp]
theorem addAll_nil (span : Span) : span.addAll [] = span := by
  cases span
  simp [addAll]

theorem addAll_addAll (span : Span) (first second : List Span) :
    (span.addAll first).addAll second = span.addAll (first ++ second) := by
  cases span
  simp [addAll]

end Span

/-- What a draft has of its body. -/
structure Body where
  dating : Dating
  closed : List Paragraph
  paragraph : Option Paragraph
  /-- The open spans, innermost first. -/
  spans : List Span
  /-- Whether a lookup is open, which takes the leaves. -/
  lookup : Bool

namespace Body

/-- There is nothing open for a span to be put into. -/
structure IsIdle (b : Body) : Prop where
  paragraph : b.paragraph = none
  spans : b.spans = []

/-- The body with spans put into the innermost open span, or else into the open paragraph. -/
def attachAll (b : Body) (spans : List Span) : Body :=
  match b.spans, b.paragraph with
  | parent :: outer, _ => { b with spans := parent.addAll spans :: outer }
  | [], some paragraph =>
    { b with paragraph := some { paragraph with spans := paragraph.spans ++ spans } }
  | [], none => b

def openSpan (b : Body) (style : String) : Body :=
  { b with spans := .empty style :: b.spans }

def closeSpan (b : Body) : Body :=
  match b.spans with
  | [] => b
  | span :: outer => attachAll { b with spans := outer } [span]

def closeParagraph (b : Body) (version : Bool) : Body where
  dating := b.dating
  closed := b.closed ++ (b.paragraph.map fun paragraph =>
    { paragraph with
      spans := paragraph.spans ++ (Span.nest b.spans).toList
      version := if version then some Paragraph.versionSpan else none }).toList
  paragraph := none
  spans := []
  lookup := b.lookup

def openParagraph (b : Body) (style : String) : Body :=
  { if b.paragraph.isSome then b.closeParagraph false else b with paragraph := some (.empty style) }

def addLeaf (b : Body) (content : Content) : Body :=
  if b.lookup then b
  else
    b.attachAll [.leaf content.style (Resolution.ofContent b.dating.day content).reference]

def enter (b : Body) : Node.Head → Body
  | .atom (.property name value) => { b with dating := b.dating.set name value }
  | .atom (.directive _) => b
  | .atom (.content content) => b.addLeaf content
  | .group .template => b
  | .group (.pageBlock _ _) => b
  | .group (.position _) => b
  | .group (.lookup _) => { b with lookup := true }
  | .group (.paragraph style _) => b.openParagraph style
  | .group (.span style) => b.openSpan style

def exit (b : Body) : Node.Head → Body
  | .group (.lookup _) => { b with lookup := false }
  | .group (.paragraph _ version) => if b.paragraph.isSome then b.closeParagraph version else b
  | .group (.span _) => b.closeSpan
  | _ => b

def finish (b : Body) : Body :=
  if b.paragraph.isSome then b.closeParagraph false else b

def event (b : Body) : Event → Body
  | .enter _ head => b.enter head
  | .exit _ head => b.exit head

def events (b : Body) (events : List Event) : Body :=
  events.foldl event b

/-- What an edit of a draft does to its body. -/
def edit (b : Body) : Edit → Body
  | .set dates document =>
    { b with dating := { b.dating with dates, day := document.liturgicalDay } }
  | .openLookup _ _ => { b with lookup := true }
  | .closeLookup => { b with lookup := false }
  | .openParagraph style => { b with paragraph := some (.empty style) }
  | .closeParagraph version => b.closeParagraph version
  | .openSpan style => b.openSpan style
  | .dropSpan => { b with spans := b.spans.tail }
  | .attach span => b.attachAll [span]
  | _ => b

def editAll (b : Body) (edits : List Edit) : Body :=
  edits.foldl edit b

theorem editAll_cons (b : Body) (e : Edit) (edits : List Edit) :
    b.editAll (e :: edits) = (b.edit e).editAll edits := rfl

theorem editAll_append (b : Body) (first second : List Edit) :
    b.editAll (first ++ second) = (b.editAll first).editAll second :=
  List.foldl_append

theorem editAll_faultIf (b : Body) (condition : Bool) (loc : Location) (problem : Problem) :
    b.editAll (Edit.faultIf condition loc problem) = b := by
  cases condition <;> rfl

@[simp]
theorem attachAll_nil (b : Body) : b.attachAll [] = b := by
  obtain ⟨dating, closed, paragraph, spans, lookup⟩ := b
  cases spans with
  | nil => cases paragraph <;> simp [attachAll]
  | cons parent outer => simp [attachAll]

theorem attachAll_attachAll (b : Body) (first second : List Span) :
    (b.attachAll first).attachAll second = b.attachAll (first ++ second) := by
  obtain ⟨dating, closed, paragraph, spans, lookup⟩ := b
  cases spans with
  | nil => cases paragraph <;> simp [attachAll]
  | cons parent outer => simp [attachAll, Span.addAll_addAll]

@[simp]
theorem events_nil (b : Body) : b.events [] = b := rfl

@[simp]
theorem events_cons (b : Body) (event : Event) (events : List Event) :
    b.events (event :: events) = (b.event event).events events := rfl

@[simp]
theorem events_append (b : Body) (first second : List Event) :
    b.events (first ++ second) = (b.events first).events second :=
  List.foldl_append

/-- What is attached while a span is open becomes its children, and the span is attached itself when
it is closed. -/
theorem closeSpan_attachAll_openSpan (b : Body) (style : String) (children : List Span) :
    ((b.openSpan style).attachAll children).closeSpan =
      b.attachAll [⟨style, children, none⟩] := by
  simp [openSpan, attachAll, closeSpan, Span.addAll, Span.empty]

theorem IsIdle.attachAll_eq {b : Body} (h : b.IsIdle) (spans : List Span) :
    b.attachAll spans = b := by
  obtain ⟨dating, closed, paragraph, open_, lookup⟩ := b
  obtain ⟨rfl, rfl⟩ := h
  rfl

theorem IsIdle.closeParagraph_attachAll_openParagraph {b : Body} (h : b.IsIdle) (style : String)
    (spans : List Span) (version : Bool) :
    ((b.openParagraph style).attachAll spans).closeParagraph version =
      { b with
        closed := b.closed ++
          [⟨style, spans, if version then some Paragraph.versionSpan else none⟩] } := by
  obtain ⟨dating, closed, paragraph, open_, lookup⟩ := b
  obtain ⟨rfl, rfl⟩ := h
  simp [openParagraph, attachAll, closeParagraph, Paragraph.empty]

end Body

namespace Draft

def body (d : Draft) : Body :=
  ⟨d.dating, d.document.paragraphs, d.paragraph, d.spans, d.lookup.isSome⟩

theorem attach?_eq_none_iff {d : Draft} {span : Span} :
    d.attach? span = none ↔ d.body.IsIdle := by
  unfold attach?
  constructor
  · intro h
    cases hspans : d.spans with
    | cons parent outer => simp [hspans] at h
    | nil =>
      cases hparagraph : d.paragraph with
      | some paragraph => simp [hspans, hparagraph] at h
      | none => exact ⟨hparagraph, hspans⟩
  · rintro ⟨hparagraph, hspans⟩
    simp only [body] at hparagraph hspans
    simp [hparagraph, hspans]

theorem body_apply (d : Draft) (e : Edit) : (d.apply e).body = d.body.edit e := by
  cases e with
  | refer reference => cases hlookup : d.lookup <;> simp [apply, body, dating, Body.edit, hlookup]
  | attach span =>
    cases hspans : d.spans with
    | cons parent outer =>
      simp [apply, body, dating, Body.edit, Body.attachAll, hspans, Span.add_eq_addAll]
    | nil =>
      cases hparagraph : d.paragraph <;>
        simp [apply, body, dating, Body.edit, Body.attachAll, hspans, hparagraph, Paragraph.add]
  | _ => rfl

theorem body_applyAll (d : Draft) (edits : List Edit) :
    (d.applyAll edits).body = d.body.editAll edits := by
  induction edits generalizing d with
  | nil => rfl
  | cons e edits ih => rw [applyAll_cons, ih, body_apply]; rfl

theorem isViewOf_body : IsViewOf body [.heading, .lookup, .text] := by
  intro d e he
  rw [body_apply]
  cases e <;> first | rfl | simp [Edit.part] at he

theorem body_property (d : Draft) (loc : Location) (name : String) (value : Value) :
    (d.property loc name value).body = { d.body with dating := d.body.dating.set name value } := by
  have hdating : (d.property loc name value).dating = d.body.dating.set name value :=
    dating_property d loc name value
  rw [← hdating, property_eq, enterEdits]
  cases d.setProperty name value <;> rfl

theorem body_place (d : Draft) (loc : Location) (content : Content) (reference : Reference) :
    (d.place loc content reference).body =
      if d.body.lookup then d.body else d.body.attachAll [.leaf content.style reference] := by
  have hlookup : d.lookup.isSome = d.body.lookup := rfl
  rw [place_eq, body_applyAll]
  unfold placeEdits
  rw [hlookup]
  split
  · cases content <;> rfl
  · split
    · rfl
    next hnone =>
      rw [← d.isSome_attach? (.leaf content.style reference), Option.not_isSome_iff_eq_none,
        attach?_eq_none_iff] at hnone
      rw [hnone.attachAll_eq]
      split
      · rfl
      · cases content <;> rfl

theorem body_event (d : Draft) (event : Event) : (d.event event).body = d.body.event event := by
  match event with
  | .enter loc (.atom (.property name value)) =>
    exact body_property { d with last := loc } loc name value
  | .enter loc (.atom (.content content)) => exact body_place _ loc content _
  | .enter loc (.group (.lookup number)) =>
    rw [event_eq, body_applyAll, edits, enterEdits, Body.editAll_cons, Body.editAll_append,
      Body.editAll_faultIf]
    cases library? number <;> rfl
  | .enter loc (.group (.paragraph style version)) =>
    have hparagraph : d.paragraph = d.body.paragraph := rfl
    rw [event_eq, body_applyAll, edits, enterEdits, Body.editAll_cons, Body.editAll_append,
      Edit.doIf, hparagraph]
    change _ = d.body.openParagraph style
    unfold Body.openParagraph
    split <;> rfl
  | .enter loc (.group (.span style)) =>
    rw [event_eq, body_applyAll, edits, enterEdits, Body.editAll_cons, Body.editAll_append,
      Body.editAll_faultIf]
    rfl
  | .exit loc (.group (.lookup _)) =>
    rw [event_eq, body_applyAll, edits, exitEdits]
    cases hlookup : d.lookup with
    | none => simp [Body.editAll, Body.edit, Body.event, Body.exit, body, hlookup, Edit.fault]
    | some frame =>
      dsimp only
      rw [Body.editAll_cons]
      (repeat' split) <;> rfl
  | .exit loc (.group (.paragraph _ version)) =>
    have hparagraph : d.paragraph = d.body.paragraph := rfl
    rw [event_eq, body_applyAll, edits, exitEdits, hparagraph]
    change _ = if d.body.paragraph.isSome then d.body.closeParagraph version else d.body
    cases d.body.paragraph with
    | none => rfl
    | some paragraph =>
      rw [Option.isNone_some, if_neg Bool.false_ne_true, Body.editAll_append, Body.editAll_faultIf]
      rfl
  | .exit loc (.group (.span _)) =>
    have hspans : d.spans = d.body.spans := rfl
    rw [event_eq, body_applyAll, edits, exitEdits, hspans]
    change _ = d.body.closeSpan
    unfold Body.closeSpan
    cases hopen : d.body.spans with
    | nil => rfl
    | cons span outer => simp [Body.editAll, Body.edit, hopen]
  | .enter _ (.atom (.directive _)) | .enter _ (.group .template)
  | .enter _ (.group (.pageBlock _ _)) | .enter _ (.group (.position _))
  | .exit _ (.atom _) | .exit _ (.group .template) | .exit _ (.group (.pageBlock _ _))
  | .exit _ (.group (.position _)) =>
    exact isViewOf_body.event_eq (by simp [Event.parts]) d

/-- The body of a draft after events depends on its body before them alone. -/
theorem body_events (d : Draft) (events : List Event) :
    (d.events events).body = d.body.events events := by
  induction events generalizing d with
  | nil => rfl
  | cons event events ih =>
    calc
      (d.events (event :: events)).body = (d.event event).body.events events := ih (d.event event)
      _ = d.body.events (event :: events) := by rw [body_event, Body.events_cons]

theorem body_finish (d : Draft) : d.finish.body = d.body.finish := by
  have hparagraph : d.paragraph = d.body.paragraph := rfl
  rw [finish_eq, body_applyAll, endEdits, closingEdits]
  simp only [Body.editAll_append, Body.editAll_faultIf]
  rw [hparagraph]
  unfold Body.finish Edit.doIf
  split <;> split <;> rfl

end Draft

end Typikon
