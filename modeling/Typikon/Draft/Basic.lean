import Typikon.Document.Basic
import Typikon.Draft.DateProperties
import Typikon.Draft.Finding

/-!
Drafts: documents under construction. Nodes are entered and left in any order, and a draft takes
them all; those that do not fit are found fault with.
-/

namespace Typikon

inductive SlotState where
  | outside
  /-- In a position whose slot is unknown or that stands in no page block. -/
  | rejected
  | inside (slot : Slot)
deriving DecidableEq

/-- A lookup that is open. Its library is `none` if the template gives none that exists. -/
structure OpenLookup where
  library : Option Nat
  references : List Reference
  inSlot : Bool
deriving DecidableEq

structure Draft where
  document : Document
  /-- The date that a template without a full date is for. -/
  reference : CivilDate
  dates : DateProperties
  paragraph : Option Paragraph
  /-- The open spans, innermost first. -/
  spans : List Span
  block : Option PageBlock
  slot : SlotState
  lookup : Option OpenLookup
  last : Location
  /-- In order of discovery. -/
  findings : List Finding

namespace Draft

def start (name : String) (calendar : Reckoning) (reference : CivilDate) :
    Except CalendarError Draft := do
  let day ← LiturgicalDay.ofDate calendar reference
  return {
    document := .empty name day
    reference
    dates := ⟨calendar, none, none, none⟩
    paragraph := none
    spans := []
    block := none
    slot := .outside
    lookup := none
    last := .start
    findings := [] }

def addFindings (d : Draft) (findings : List Finding) : Draft :=
  { d with findings := d.findings ++ findings }

/-- Adds diagnostics from the reading of the template. -/
def tell (d : Draft) (diagnostics : List Diagnostic) : Draft :=
  d.addFindings (diagnostics.map .told)

def report (d : Draft) (loc : Location) (problem : Problem) : Draft :=
  d.addFindings [.certain loc problem]

def reportIf (d : Draft) (condition : Bool) (loc : Location) (problem : Problem) : Draft :=
  if condition then d.report loc problem else d

/-- The draft with a span put into the innermost open span, or else into the open paragraph. -/
def attach? (d : Draft) (span : Span) : Option Draft :=
  match d.spans, d.paragraph with
  | parent :: outer, _ => some { d with spans := parent.add span :: outer }
  | [], some paragraph => some { d with paragraph := some (paragraph.add span) }
  | [], none => none

def insert (d : Draft) (insertion : Insertion) : Draft :=
  match d.slot, d.block with
  | .inside slot, some block => { d with block := some (block.insert slot insertion) }
  | _, _ => d

end Draft

end Typikon
