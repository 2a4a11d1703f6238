import Typikon.Draft.Event

/-!
The end of a draft: what is still open is closed and reported, and dates in headers and footers
become the date of the document.
-/

namespace Typikon.Draft

/-- Reports what is still open after the last node, and closes what can be kept. -/
def closeAll (d : Draft) : Draft :=
  let d := d.reportIf d.lookup.isSome d.last .lookupUnended
  let d := d.reportIf (!d.spans.isEmpty) d.last .spanUnended
  let d :=
    if d.paragraph.isSome then (d.report d.last .paragraphUnended).closeParagraph false else d
  match d.block with
  | some block => (d.report d.last .blockUnended).closeBlock block
  | none => d

/-- Whether the template is for a service and has no day of its own. -/
def isUndatedService (d : Draft) : Bool :=
  d.document.type = .service && (d.dates.month.isNone || d.dates.day.isNone)

/-- Closes a draft and dates it. Its document and findings are then final. -/
def finish (d : Draft) : Draft :=
  let d := d.closeAll
  let d := d.reportIf d.isUndatedService .start .serviceWithoutDate
  let today := d.document.liturgicalDay.date
  { d with
    document := { d.document with
      pdf := { d.document.pdf with layout := d.document.pdf.layout.withDate today } } }

end Typikon.Draft
