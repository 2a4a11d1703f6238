import Typikon.Calendar.LiturgicalDay
import Typikon.Document.PageLayout
import Typikon.Document.Span

/-!
Documents. A document is what a template comes to on one liturgical day, independent of the form in
which it is shown. The texts themselves stay in the libraries that its references are looked up in.
-/

namespace Typikon

structure PdfSettings where
  css : String
  title : String
  pageNumber : Nat
  layout : PageLayout
deriving DecidableEq

structure Document where
  id : String
  type : TemplateType
  status : Status
  calendar : Reckoning
  year : Option Int
  month : Option Nat
  day : Option Nat
  liturgicalDay : LiturgicalDay
  htmlCss : String
  pdf : PdfSettings
  paragraphs : List Paragraph

namespace Document

/-- The document of a template that says nothing. -/
def empty (id : String) (day : LiturgicalDay) : Document where
  id
  type := .block
  status := .na
  calendar := day.reckoning
  year := none
  month := none
  day := none
  liturgicalDay := day
  htmlCss := ""
  pdf := ⟨"", "", 1, .empty⟩
  paragraphs := []

def references (d : Document) : List Reference :=
  d.paragraphs.flatMap Paragraph.references

end Document

end Typikon
