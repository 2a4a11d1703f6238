import Typikon.Draft.SetProperty
import Typikon.Template.Event

/-!
The effect of events on a draft: what entering and leaving a node does. Headers and footers have
positions, which hold directives, lookups and literals. Bodies have paragraphs, which hold spans and
leaves. A lookup takes every reference while it is open, wherever it stands.
-/

namespace Typikon

def Content.style : Content → String
  | .literal _ => "nid"
  | .relative _ _ => "kvp"
  | .absolute _ => "kvp"
  | .media _ => "media"

namespace Draft

def enterBlock (d : Draft) (loc : Location) (edge : PageEdge) (parity : Parity) : Draft :=
  { d.reportIf d.block.isSome loc .blockWithinBlock with
    block := some (.empty edge parity)
    slot := .outside }

def closeBlock (d : Draft) (block : PageBlock) : Draft :=
  { d with
    block := none
    document := { d.document with
      pdf := { d.document.pdf with layout := d.document.pdf.layout.add block } } }

def exitBlock (d : Draft) (loc : Location) : Draft :=
  let d := match d.block with
    | some block => d.closeBlock block
    | none => d.report loc .blockEndsUnbegun
  { d with slot := .outside }

def enterPosition (d : Draft) (loc : Location) (slot : String) : Draft :=
  if d.block.isNone then { d.report loc (.slotOutsideBlock slot) with slot := .rejected }
  else
    match Slot.vocabulary.read slot with
    | .ok slot => { d with slot := .inside slot }
    | .error cause => { d.report loc (.keyword cause) with slot := .rejected }

def exitPosition (d : Draft) : Draft :=
  { d with slot := .outside }

def directiveInsertion? (today : CivilDate) (name : String) : Option Insertion :=
  if name = "Date" then some (.date Insertion.dateStyle (some today))
  else if name = "PageNbr" then some (.pageNumber Insertion.pageNumberStyle)
  else none

def directive (d : Draft) (loc : Location) (name : String) : Draft :=
  match directiveInsertion? d.document.liturgicalDay.date name with
  | none => d.report loc (.unknownDirective name)
  | some insertion =>
    if d.slot = .outside then d.report loc (.directiveOutsideSlot name) else d.insert insertion

/-- The number of a library, of which there are three. -/
def library? (number : Option Int) : Except Problem Nat :=
  match number with
  | none => .error .libraryMissing
  | some n => if 1 ≤ n ∧ n ≤ 3 then .ok n.toNat else .error (.libraryOutOfRange n)

def enterLookup (d : Draft) (loc : Location) (number : Option Int) : Draft :=
  let inSlot := d.slot ≠ .outside
  let d := d.reportIf (!inSlot) loc .lookupOutsideSlot
  match library? number with
  | .ok library => { d with lookup := some ⟨some library, [], inSlot⟩ }
  | .error problem => { d.report loc problem with lookup := some ⟨none, [], inSlot⟩ }

def exitLookup (d : Draft) (loc : Location) : Draft :=
  match d.lookup with
  | none => d.report loc .lookupEndsUnbegun
  | some frame =>
    let d := { d with lookup := none }
    if frame.references.isEmpty then d.report loc .lookupEmpty
    else
      match frame.library, frame.inSlot with
      | some library, true => d.insert (.lookup Insertion.lookupStyle ⟨frame.references, library⟩)
      | _, _ => d

/-- Closes the open spans and puts the open paragraph into the document. -/
def closeParagraph (d : Draft) (version : Bool) : Draft :=
  match d.paragraph with
  | none => { d with spans := [] }
  | some paragraph =>
    let closed : Paragraph :=
      { paragraph with
        spans := paragraph.spans ++ (Span.nest d.spans).toList
        version := if version then some Paragraph.versionSpan else none }
    { d with
      paragraph := none
      spans := []
      document := { d.document with paragraphs := d.document.paragraphs ++ [closed] } }

def enterParagraph (d : Draft) (loc : Location) (style : String) : Draft :=
  let d :=
    if d.paragraph.isSome then (d.report loc .paragraphWithinParagraph).closeParagraph false else d
  { d with paragraph := some (.empty style) }

def exitParagraph (d : Draft) (loc : Location) (version : Bool) : Draft :=
  if d.paragraph.isNone then d.report loc .paragraphEndsUnbegun
  else (d.reportIf (!d.spans.isEmpty) loc .spanOutlastsParagraph).closeParagraph version

def enterSpan (d : Draft) (loc : Location) (style : String) : Draft :=
  let d := d.reportIf d.paragraph.isNone loc (.spanOutsideParagraph style)
  { d with spans := .empty style :: d.spans }

/-- Closes the innermost span. One that nothing is open around is dropped, since its beginning was
reported. -/
def exitSpan (d : Draft) (loc : Location) : Draft :=
  match d.spans with
  | [] => d.report loc .spanEndsUnbegun
  | span :: outer =>
    let d := { d with spans := outer }
    (d.attach? span).getD d

/-- Puts a resolved leaf where it belongs: into the open lookup, else into the open span or
paragraph, else into the open slot. -/
def place (d : Draft) (loc : Location) (content : Content) (reference : Reference) : Draft :=
  match d.lookup with
  | some frame =>
    match content with
    | .relative _ _ | .absolute _ =>
      { d with lookup := some { frame with references := frame.references ++ [reference] } }
    | .literal _ | .media _ => d.report loc .unfitForLookup
  | none =>
    match d.attach? (.leaf content.style reference) with
    | some next => next
    | none =>
      if d.slot = .outside then d.report loc (.leafOutsideParagraph content.raw)
      else
        match content with
        | .literal text => d.insert (.literal Insertion.literalStyle text)
        | _ => d.report loc .unfitForSlot

/-- Resolves a leaf for the day in force, and puts it where it belongs. -/
def leaf (d : Draft) (loc : Location) (content : Content) : Draft :=
  let overrides := match content with
    | .relative _ overrides => overrides
    | _ => []
  let at? (kind : OverrideKind) := (Override.last? overrides kind).map Override.location
  let r := Resolution.ofContent d.document.liturgicalDay content
  (d.addFindings (Finding.ofResolution loc (at? .mode) (at? .day) r)).place loc content r.reference

def enter (d : Draft) (loc : Location) (head : Node.Head) : Draft :=
  let d := { d with last := loc }
  match head with
  | .atom (.property name value) => d.property loc name value
  | .atom (.directive name) => d.directive loc name
  | .atom (.content content) => d.leaf loc content
  | .group .template => d
  | .group (.pageBlock edge parity) => d.enterBlock loc edge parity
  | .group (.position slot) => d.enterPosition loc slot
  | .group (.lookup library) => d.enterLookup loc library
  | .group (.paragraph style _) => d.enterParagraph loc style
  | .group (.span style) => d.enterSpan loc style

def exit (d : Draft) (loc : Location) (head : Node.Head) : Draft :=
  match head with
  | .atom _ => d
  | .group .template => d
  | .group (.pageBlock _ _) => d.exitBlock loc
  | .group (.position _) => d.exitPosition
  | .group (.lookup _) => d.exitLookup loc
  | .group (.paragraph _ version) => d.exitParagraph loc version
  | .group (.span _) => d.exitSpan loc

def event (d : Draft) : Event → Draft
  | .enter loc head => d.enter loc head
  | .exit loc head => d.exit loc head

def events (d : Draft) (events : List Event) : Draft :=
  events.foldl event d

mutual

def node (d : Draft) : Node → Draft
  | .atom loc a => (d.enter loc (.atom a)).exit loc (.atom a)
  | .group loc g children => ((d.enter loc (.group g)).nodes children).exit loc (.group g)

def nodes (d : Draft) : List Node → Draft
  | [] => d
  | first :: rest => (d.node first).nodes rest

end

end Draft

end Typikon
