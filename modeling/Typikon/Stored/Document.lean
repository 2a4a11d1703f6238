import Typikon.Document.Basic
import Typikon.Stored.Calendar

/-!
The stored form of documents and their parts. A stored document is what renderers are given; reading
it back gives the same document.
-/

namespace Typikon

open Json

namespace LibraryId

def toJson (id : LibraryId) : Json :=
  .string id.text

def ofJson? (j : Json) : Option LibraryId :=
  j.string?.bind fun text => (read text).toOption

end LibraryId

namespace Reference

def literalFields : List String := ["text"]

def relativeFields : List String := ["topic_key", "resolved", "mode", "day"]

def absoluteFields : List String := ["topic_key"]

def toJson : Reference → Json
  | .literal text => .variant "nid" literalFields [some (.string text)]
  | .relative path resolved mode day =>
    .variant "rid" relativeFields
      [some (.string path), some (.string resolved), mode.map (.number ·), day.map (.number ·)]
  | .absolute path => .variant "sid" absoluteFields [some (.string path)]

/-- The words for the variants, in the order of their numbers. -/
def variants : List String := ["nid", "rid", "sid"]

def ofFields? (word : String) (fields : Json) : Option Reference :=
  match word with
  | "nid" => fields.readRecord? literalFields do return .literal (← required string?)
  | "rid" =>
    fields.readRecord? relativeFields do
      return .relative (← required string?) (← required string?)
        (← withDefault none (nullable? unsigned8?)) (← withDefault none (nullable? unsigned8?))
  | "sid" => fields.readRecord? absoluteFields do return .absolute (← required string?)
  | _ => none

def ofJson? (j : Json) : Option Reference := do
  let (word, fields) ← j.variant?
  ofFields? word fields

/-- Reads a reference whose variant may be given by its number. -/
def ofNumberedJson? (j : Json) : Option Reference := do
  let (word, fields) ← j.numberedVariant? variants
  ofFields? word fields

/-- Reads the reference of a span, which may be missing. -/
def ofField? (value : Option Json) : Option (Option Reference) :=
  (value.getD .null).nullable? ofJson?

end Reference

namespace Span

def fieldNames : List String := ["class", "children", "reference"]

mutual

def toJson : Span → Json
  | ⟨style, children, reference⟩ =>
    .record fieldNames
      [some (.string style), if children.isEmpty then none else some (.array (toJsonAll children)),
        reference.map Reference.toJson]

def toJsonAll : List Span → List Json
  | [] => []
  | span :: spans => span.toJson :: toJsonAll spans

end

/-- The span of a style and a reference as they are stored, if both can be read, and of children. -/
def assemble? (style : Option Json) (children : Option (List Span)) (reference : Option Json) :
    Option Span := do
  return ⟨← (← style).string?, ← children, ← Reference.ofField? reference⟩

mutual

def ofJson? : Json → Option Span
  | .object fields =>
    assemble? (fields.lookup "class") (childrenOfFields? fields) (fields.lookup "reference")
  | .array [style] => assemble? (some style) (some []) none
  | .array [style, children] => assemble? (some style) (ofJsonList? children) none
  | .array [style, children, reference] =>
    assemble? (some style) (ofJsonList? children) (some reference)
  | _ => none

def ofJsonList? : Json → Option (List Span)
  | .array items => ofJsonAll? items
  | _ => none

def ofJsonAll? : List Json → Option (List Span)
  | [] => some []
  | item :: items => do
    let span ← ofJson? item
    let spans ← ofJsonAll? items
    some (span :: spans)

/-- Reads the children among the fields of a span, of which there are none if no field has them. -/
def childrenOfFields? : List (String × Json) → Option (List Span)
  | [] => some []
  | (name, value) :: fields =>
    if name = "children" then ofJsonList? value else childrenOfFields? fields

end

end Span

namespace Paragraph

def fieldNames : List String := ["class", "spans", "version"]

def toJson (p : Paragraph) : Json :=
  .record fieldNames
    [some (.string p.style), some (.array (p.spans.map Span.toJson)), p.version.map Span.toJson]

def ofJson? : Json → Option Paragraph :=
  readRecord? fieldNames do
    return {
      style := ← required string?
      spans := ← required (listOf? Span.ofJson?)
      version := ← withDefault none (nullable? Span.ofJson?) }

end Paragraph

namespace Lookup

def fieldNames : List String := ["references", "library"]

def toJson (l : Lookup) : Json :=
  .record fieldNames [some (.array (l.references.map Reference.toJson)), some (.number l.library)]

def ofJson? : Json → Option Lookup :=
  readRecord? fieldNames do
    return {
      references := ← required (listOf? Reference.ofNumberedJson?)
      library := ← required unsigned8? }

end Lookup

namespace Insertion

def dateFields : List String := ["class", "date"]

def pageNumberFields : List String := ["class"]

def literalFields : List String := ["class", "text"]

def lookupFields : List String := ["class", "lookup"]

def toJson : Insertion → Json
  | .date style day =>
    .variant "insert_date" dateFields [some (.string style), day.map CivilDate.toJson]
  | .pageNumber style => .variant "insert_page_number" pageNumberFields [some (.string style)]
  | .literal style text =>
    .variant "insert_literal" literalFields [some (.string style), some (.string text)]
  | .lookup style l => .variant "insert_lookup" lookupFields [some (.string style), some l.toJson]

def ofJson? (j : Json) : Option Insertion := do
  let (word, fields) ← j.variant?
  match word with
  | "insert_date" =>
    fields.readRecord? dateFields do
      return .date (← required string?) (← withDefault none (nullable? CivilDate.ofJson?))
  | "insert_page_number" =>
    fields.readRecord? pageNumberFields do return .pageNumber (← required string?)
  | "insert_literal" =>
    fields.readRecord? literalFields do return .literal (← required string?) (← required string?)
  | "insert_lookup" =>
    fields.readRecord? lookupFields do
      return .lookup (← required string?) (← required Lookup.ofJson?)
  | _ => none

end Insertion

namespace PageBlock

def fieldNames : List String := ["kind", "parity", "left", "center", "right"]

def toJson (b : PageBlock) : Json :=
  .record fieldNames
    [some (PageEdge.vocabulary.toJson b.edge), some (Parity.vocabulary.toJson b.parity),
      some (.array (b.left.map Insertion.toJson)), some (.array (b.center.map Insertion.toJson)),
      some (.array (b.right.map Insertion.toJson))]

def ofJson? : Json → Option PageBlock :=
  readRecord? fieldNames do
    return {
      edge := ← required PageEdge.vocabulary.ofJson?
      parity := ← required Parity.vocabulary.ofJson?
      left := ← required (listOf? Insertion.ofJson?)
      center := ← required (listOf? Insertion.ofJson?)
      right := ← required (listOf? Insertion.ofJson?) }

end PageBlock

namespace PageLayout

def fieldNames : List String := ["headers", "footers"]

def toJson (l : PageLayout) : Json :=
  .record fieldNames
    [some (.array (l.headers.map PageBlock.toJson)), some (.array (l.footers.map PageBlock.toJson))]

def ofJson? : Json → Option PageLayout :=
  readRecord? fieldNames do
    return {
      headers := ← required (listOf? PageBlock.ofJson?)
      footers := ← required (listOf? PageBlock.ofJson?) }

end PageLayout

namespace PdfSettings

def fieldNames : List String := ["css", "title", "page_number", "layout"]

def toJson (p : PdfSettings) : Json :=
  .record fieldNames
    [some (.string p.css), some (.string p.title), some (.number p.pageNumber),
      some p.layout.toJson]

def ofJson? : Json → Option PdfSettings :=
  readRecord? fieldNames do
    return {
      css := ← required string?
      title := ← required string?
      pageNumber := ← required unsigned32?
      layout := ← required PageLayout.ofJson? }

end PdfSettings

namespace Document

def fieldNames : List String :=
  ["id", "type", "status", "calendar", "year", "month", "day", "ldp", "html_css", "pdf",
    "paragraphs"]

def toJson (d : Document) : Json :=
  .record fieldNames
    [some (.string d.id), some (TemplateType.vocabulary.toJson d.type),
      some (Status.vocabulary.toJson d.status), some (Reckoning.vocabulary.toJson d.calendar),
      some (.ofOption (d.year.map .number)), some (.ofOption (d.month.map (.number ·))),
      some (.ofOption (d.day.map (.number ·))), some d.liturgicalDay.toJson,
      some (.string d.htmlCss), some d.pdf.toJson,
      some (.array (d.paragraphs.map Paragraph.toJson))]

def ofJson? : Json → Option Document :=
  readRecord? fieldNames do
    return {
      id := ← required string?
      type := ← required TemplateType.vocabulary.ofJson?
      status := ← required Status.vocabulary.ofJson?
      calendar := ← required Reckoning.vocabulary.ofJson?
      year := ← withDefault none (nullable? signed32?)
      month := ← withDefault none (nullable? unsigned32?)
      day := ← withDefault none (nullable? unsigned32?)
      liturgicalDay := ← required LiturgicalDay.ofJson?
      htmlCss := ← required string?
      pdf := ← required PdfSettings.ofJson?
      paragraphs := ← required (listOf? Paragraph.ofJson?) }

end Document

end Typikon
