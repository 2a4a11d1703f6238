import Typikon.Proofs.Document.References
import Typikon.Proofs.Stored.Calendar
import Typikon.Stored.Document

/-!
Documents are read back from their stored form. What is left out comes back as it was, empty or
missing: the children of a span that has none, a reference, the mode and the day of a relative
reference, a version, the date of an inserted date. The word for a variant selects that variant
again, be it read by itself or where the number of the variant could stand as well.
-/

namespace Typikon

open Json

theorem TemplateType.restores : Restores vocabulary.ofJson? vocabulary.toJson fun _ => True :=
  restores_vocabulary fun type => by cases type <;> decide

theorem Status.restores : Restores vocabulary.ofJson? vocabulary.toJson fun _ => True :=
  restores_vocabulary fun status => by cases status <;> decide

theorem PageEdge.restores : Restores vocabulary.ofJson? vocabulary.toJson fun _ => True :=
  restores_vocabulary fun edge => by cases edge <;> decide

theorem Parity.restores : Restores vocabulary.ofJson? vocabulary.toJson fun _ => True :=
  restores_vocabulary fun parity => by cases parity <;> decide

namespace Reference

/-- Whether the mode and the day fit their widths. -/
def Storable : Reference → Prop
  | .relative _ _ mode weekday => (∀ n ∈ mode, n ≤ 255) ∧ ∀ n ∈ weekday, n ≤ 255
  | .literal _ | .absolute _ => True

theorem ofJson?_variant (word : String) (names : List String) (values : List (Option Json)) :
    ofJson? (.variant word names values) = ofFields? word (.variant word names values) := by
  rw [ofJson?, variant?_variant]
  rfl

theorem restores : Restores ofJson? toJson Storable := by
  intro r other
  cases r with
  | literal text =>
    rw [toJson, ofJson?_variant, ofFields?, readRecord?_variant (by decide) (by decide) rfl]
    simp only [restores_string.required_bind, run'_pure_eq_some_iff, true_and, Storable]
  | relative path resolved mode weekday =>
    rw [toJson, ofJson?_variant, ofFields?, readRecord?_variant (by decide) (by decide) rfl]
    simp only [restores_string.required_bind, map_number_natCast,
      restores_unsigned8.optional_bind nofun, run'_pure_eq_some_iff, true_and, Storable, and_assoc]
  | absolute path =>
    rw [toJson, ofJson?_variant, ofFields?, readRecord?_variant (by decide) (by decide) rfl]
    simp only [restores_string.required_bind, run'_pure_eq_some_iff, true_and, Storable]

theorem restores_numbered : Restores ofNumberedJson? toJson Storable := by
  intro r other
  have hread : ofNumberedJson? r.toJson = ofJson? r.toJson := by
    cases r <;> simp [ofNumberedJson?, ofJson?, toJson, variant?_variant, numberedVariant?_variant]
  rw [hread]
  exact restores r other

theorem toJson_ne_null (r : Reference) : r.toJson ≠ .null := by
  cases r <;> nofun

theorem ofField?_map_toJson_eq_some_iff {reference other : Option Reference} :
    ofField? (reference.map toJson) = some other ↔
      (∀ r ∈ reference, r.Storable) ∧ other = reference := by
  have hvalue : (reference.map toJson).getD .null = ofOption (reference.map toJson) := by
    cases reference <;> rfl
  rw [ofField?, hvalue]
  exact restores.nullable toJson_ne_null reference other

end Reference

namespace Span

/-- A span can be stored if every reference in it can, at whatever depth. -/
def Storable (span : Span) : Prop :=
  ∀ r ∈ span.references, r.Storable

theorem ofJson?_toJson (style : String) (children : List Span) (reference : Option Reference) :
    ofJson? (toJson ⟨style, children, reference⟩) =
      assemble? (some (.string style)) (ofJsonAll? (toJsonAll children))
        (reference.map Reference.toJson) := by
  rw [toJson]
  cases children with
  | nil =>
    cases reference <;>
      simp [record, fieldsOf, fieldNames, ofJson?, childrenOfFields?, toJsonAll, ofJsonAll?,
        List.lookup_cons]
  | cons child children =>
    cases reference <;>
      simp [record, fieldsOf, fieldNames, ofJson?, childrenOfFields?, ofJsonList?, List.lookup_cons]

mutual

theorem ofJson?_toJson_eq_some_iff : ∀ span other : Span,
    ofJson? span.toJson = some other ↔ span.Storable ∧ other = span
  | ⟨style, children, reference⟩, other => by
    rw [ofJson?_toJson, assemble?]
    simp only [Option.bind_eq_bind, Option.bind_eq_some_iff, string?,
      ofJsonAll?_toJsonAll_eq_some_iff children, Reference.ofField?_map_toJson_eq_some_iff,
      Option.pure_def, Option.some.injEq, exists_eq_left']
    have hstorable : (mk style children reference).Storable ↔
        (∀ r ∈ reference, r.Storable) ∧ ∀ r ∈ referencesOfAll children, r.Storable := by
      simp only [Storable, references, List.forall_mem_append, Option.mem_toList, Option.mem_def]
    rw [hstorable]
    constructor
    · rintro ⟨_, ⟨hchildren, rfl⟩, _, ⟨hreference, rfl⟩, rfl⟩
      exact ⟨⟨hreference, hchildren⟩, rfl⟩
    · rintro ⟨⟨hreference, hchildren⟩, rfl⟩
      exact ⟨children, ⟨hchildren, rfl⟩, reference, ⟨hreference, rfl⟩, rfl⟩

theorem ofJsonAll?_toJsonAll_eq_some_iff : ∀ spans others : List Span,
    ofJsonAll? (toJsonAll spans) = some others ↔
      (∀ r ∈ referencesOfAll spans, r.Storable) ∧ others = spans
  | [], others => by
    simp [toJsonAll, ofJsonAll?, eq_comm]
  | span :: spans, others => by
    rw [toJsonAll, ofJsonAll?]
    simp only [Option.bind_eq_bind, Option.bind_eq_some_iff, ofJson?_toJson_eq_some_iff span,
      ofJsonAll?_toJsonAll_eq_some_iff spans, Option.some.injEq, referencesOfAll_cons,
      List.forall_mem_append]
    constructor
    · rintro ⟨_, ⟨hspan, rfl⟩, _, ⟨hspans, rfl⟩, rfl⟩
      exact ⟨⟨hspan, hspans⟩, rfl⟩
    · rintro ⟨⟨hspan, hspans⟩, rfl⟩
      exact ⟨span, ⟨hspan, rfl⟩, spans, ⟨hspans, rfl⟩, rfl⟩

end

theorem restores : Restores ofJson? toJson Storable :=
  ofJson?_toJson_eq_some_iff

theorem toJson_ne_null (span : Span) : span.toJson ≠ .null := by
  cases span with
  | mk style children reference =>
    rw [toJson]
    nofun

theorem forall_mem_referencesOfAll_iff {spans : List Span} :
    (∀ r ∈ referencesOfAll spans, r.Storable) ↔ ∀ span ∈ spans, span.Storable := by
  induction spans with
  | nil => simp
  | cons span spans ih =>
    rw [referencesOfAll_cons, List.forall_mem_append, ih, List.forall_mem_cons, Storable]

end Span

namespace Paragraph

def Storable (p : Paragraph) : Prop :=
  ∀ r ∈ p.references, r.Storable

theorem storable_iff {p : Paragraph} :
    p.Storable ↔ (∀ span ∈ p.spans, span.Storable) ∧ ∀ span ∈ p.version, span.Storable := by
  rw [Storable, references, List.forall_mem_append, Span.forall_mem_referencesOfAll_iff,
    Span.forall_mem_referencesOfAll_iff]
  simp only [Option.mem_toList, Option.mem_def]

theorem restores : Restores ofJson? toJson Storable := by
  intro p other
  unfold ofJson? toJson
  rw [readRecord?_record (by decide) rfl]
  simp only [restores_string.required_bind, Span.restores.list.required_bind,
    Span.restores.optional_bind Span.toJson_ne_null, run'_pure_eq_some_iff, true_and,
    storable_iff, and_assoc]

end Paragraph

namespace Lookup

@[mk_iff]
structure Storable (l : Lookup) : Prop where
  references : ∀ r ∈ l.references, r.Storable
  library : l.library ≤ 255

theorem restores : Restores ofJson? toJson Storable := by
  intro l other
  unfold ofJson? toJson
  rw [readRecord?_record (by decide) rfl]
  simp only [Reference.restores_numbered.list.required_bind, restores_unsigned8.required_bind,
    run'_pure_eq_some_iff, storable_iff, and_assoc]

end Lookup

namespace Insertion

def Storable : Insertion → Prop
  | .date _ day => ∀ date ∈ day, date.Supported
  | .lookup _ l => l.Storable
  | .pageNumber _ | .literal _ _ => True

theorem restores : Restores ofJson? toJson Storable := by
  intro insertion other
  cases insertion with
  | date style day =>
    simp only [toJson, ofJson?, variant?_variant, Option.bind_eq_bind, Option.bind_some]
    rw [readRecord?_variant (by decide) (by decide) rfl]
    simp only [restores_string.required_bind, CivilDate.restores.optional_bind nofun,
      run'_pure_eq_some_iff, true_and, Storable]
  | pageNumber style =>
    simp only [toJson, ofJson?, variant?_variant, Option.bind_eq_bind, Option.bind_some]
    rw [readRecord?_variant (by decide) (by decide) rfl]
    simp only [restores_string.required_bind, run'_pure_eq_some_iff, true_and, Storable]
  | literal style text =>
    simp only [toJson, ofJson?, variant?_variant, Option.bind_eq_bind, Option.bind_some]
    rw [readRecord?_variant (by decide) (by decide) rfl]
    simp only [restores_string.required_bind, run'_pure_eq_some_iff, true_and, Storable]
  | lookup style l =>
    simp only [toJson, ofJson?, variant?_variant, Option.bind_eq_bind, Option.bind_some]
    rw [readRecord?_variant (by decide) (by decide) rfl]
    simp only [restores_string.required_bind, Lookup.restores.required_bind,
      run'_pure_eq_some_iff, true_and, Storable]

end Insertion

namespace PageBlock

@[mk_iff]
structure Storable (b : PageBlock) : Prop where
  left : ∀ insertion ∈ b.left, insertion.Storable
  center : ∀ insertion ∈ b.center, insertion.Storable
  right : ∀ insertion ∈ b.right, insertion.Storable

theorem restores : Restores ofJson? toJson Storable := by
  intro b other
  unfold ofJson? toJson
  rw [readRecord?_record (by decide) rfl]
  simp only [PageEdge.restores.required_bind, Parity.restores.required_bind,
    Insertion.restores.list.required_bind, run'_pure_eq_some_iff, true_and, storable_iff, and_assoc]

end PageBlock

namespace PageLayout

@[mk_iff]
structure Storable (l : PageLayout) : Prop where
  headers : ∀ b ∈ l.headers, b.Storable
  footers : ∀ b ∈ l.footers, b.Storable

theorem restores : Restores ofJson? toJson Storable := by
  intro l other
  unfold ofJson? toJson
  rw [readRecord?_record (by decide) rfl]
  simp only [PageBlock.restores.list.required_bind, run'_pure_eq_some_iff, storable_iff, and_assoc]

end PageLayout

namespace PdfSettings

@[mk_iff]
structure Storable (p : PdfSettings) : Prop where
  pageNumber : p.pageNumber ≤ 4294967295
  layout : p.layout.Storable

theorem restores : Restores ofJson? toJson Storable := by
  intro p other
  unfold ofJson? toJson
  rw [readRecord?_record (by decide) rfl]
  simp only [restores_string.required_bind, restores_unsigned32.required_bind,
    PageLayout.restores.required_bind, run'_pure_eq_some_iff, true_and, storable_iff, and_assoc]

end PdfSettings

namespace Document

@[mk_iff]
structure Storable (d : Document) : Prop where
  year : ∀ year ∈ d.year, -2147483648 ≤ year ∧ year ≤ 2147483647
  month : ∀ month ∈ d.month, month ≤ 4294967295
  day : ∀ day ∈ d.day, day ≤ 4294967295
  liturgicalDay : d.liturgicalDay.Storable
  pdf : d.pdf.Storable
  paragraphs : ∀ p ∈ d.paragraphs, p.Storable

theorem restores : Restores ofJson? toJson Storable := by
  intro d other
  unfold ofJson? toJson
  rw [readRecord?_record (by decide) rfl]
  simp only [restores_string.required_bind, TemplateType.restores.required_bind,
    Status.restores.required_bind, Reckoning.restores.required_bind, map_number_natCast,
    (restores_signed32.nullable nofun).withDefault_bind,
    (restores_unsigned32.nullable nofun).withDefault_bind, LiturgicalDay.restores.required_bind,
    PdfSettings.restores.required_bind, Paragraph.restores.list.required_bind,
    run'_pure_eq_some_iff, true_and, storable_iff, and_assoc]

end Document

end Typikon
