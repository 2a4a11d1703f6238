import Typikon.Proofs.Stored.Document
import Typikon.Stored.Compilation

/-!
Nothing of a compilation is lost when it is stored: what is read back is the very compilation, with
every paragraph and nested span, header and footer, date and error.
-/

namespace Typikon

open Json

theorem DiagnosticKind.restores : Restores vocabulary.ofJson? vocabulary.toJson fun _ => True :=
  restores_vocabulary fun kind => by cases kind <;> decide

namespace TemplateError

@[mk_iff]
structure Storable (e : TemplateError) : Prop where
  line : e.location.line ≤ 18446744073709551615
  column : e.location.column ≤ 18446744073709551615

theorem restores : Restores ofJson? toJson Storable := by
  intro e other
  unfold ofJson? toJson
  rw [readRecord?_record (by decide) rfl]
  simp only [restores_string.required_bind, restores_unsigned64.required_bind,
    DiagnosticKind.restores.required_bind, run'_pure_eq_some_iff, true_and, storable_iff,
    and_assoc]

end TemplateError

namespace Compilation

@[mk_iff]
structure Storable (c : Compilation) : Prop where
  document : c.document.Storable
  errors : ∀ e ∈ c.errors, e.Storable

/-- A stored compilation is read back as the very compilation, if its numbers fit the widths in
which they are held and its dates are supported. Otherwise it is refused, and never read as another
one. -/
theorem ofJson?_toJson_eq_some_iff_storable (c other : Compilation) :
    ofJson? c.toJson = some other ↔ c.Storable ∧ other = c := by
  unfold ofJson? toJson
  rw [readRecord?_record (by decide) rfl]
  simp only [Document.restores.required_bind, TemplateError.restores.list.required_bind,
    run'_pure_eq_some_iff, storable_iff, and_assoc]

/-- 31 December 9999 of the Julian reckoning, which is past the year 9999 of the Gregorian one. -/
def lastDay : LiturgicalDay :=
  .ofAnchors .julian ⟨3652132⟩
    ⟨⟨3651487⟩, ⟨3651872⟩, ⟨3652229⟩, ⟨3651782⟩, ⟨3651659⟩, ⟨3652024⟩⟩

theorem storable_lastDay : lastDay.Storable := by
  constructor <;> decide

/-- A compilation with nested spans, references of all kinds, all insertions, and errors. -/
def varied : Compilation where
  document := {
    id := "t"
    type := .service
    status := .final
    calendar := .julian
    year := some 9999
    month := none
    day := some 31
    liturgicalDay := lastDay
    htmlCss := "t.css"
    pdf := ⟨"p.css", "Vespers", 1,
      ⟨[⟨.header, .odd, [.date "d" none, .pageNumber "n"], [.literal "l" "Vespers"],
          [.lookup "k" ⟨[.relative "oc/m*" "oc/m1" (some 1) none, .absolute "me/title"], 2⟩]⟩],
        [⟨.footer, .both, [.date "d" (some ⟨3652132⟩)], [], []⟩]⟩⟩
    paragraphs :=
      [⟨"p", [⟨"outer", [⟨"inner", [.leaf "leaf" (.literal "x")], none⟩,
          .leaf "leaf" (.relative "oc/d*" "oc/d2" none (some 2))], some (.absolute "me/key")⟩],
        some Paragraph.versionSpan⟩,
      ⟨"empty", [], none⟩] }
  errors := [⟨"t", ⟨1, 2⟩, "a", .syntactic⟩, ⟨"t", ⟨3, 4⟩, "b", .semantic⟩]

theorem ofJson?_toJson_varied : varied.Storable ∧ ofJson? varied.toJson = some varied := by
  have hpdf : varied.document.pdf.Storable := by
    simp [varied, PdfSettings.storable_iff, PageLayout.storable_iff, PageBlock.storable_iff,
      Insertion.Storable, Lookup.storable_iff, Reference.Storable, CivilDate.Supported]
  have hparagraphs : ∀ p ∈ varied.document.paragraphs, p.Storable := by
    simp [varied, Paragraph.storable_iff, Span.Storable, Span.references, Paragraph.versionSpan,
      Reference.Storable]
  have hdocument : varied.document.Storable :=
    ⟨by decide, by decide, by decide, storable_lastDay, hpdf, hparagraphs⟩
  have herrors : ∀ e ∈ varied.errors, e.Storable := by
    simp [varied, TemplateError.storable_iff]
  have hstorable : varied.Storable := ⟨hdocument, herrors⟩
  exact ⟨hstorable, (ofJson?_toJson_eq_some_iff_storable varied varied).mpr ⟨hstorable, rfl⟩⟩

end Compilation

end Typikon
