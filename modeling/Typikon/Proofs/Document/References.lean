import Typikon.Document.Basic

/-!
All references of a document: those of its paragraphs, and those of the lookups in its headers and
footers.
-/

namespace Typikon

namespace Span

@[simp]
theorem referencesOfAll_nil : referencesOfAll [] = [] := by
  rw [referencesOfAll]

@[simp]
theorem referencesOfAll_cons (span : Span) (spans : List Span) :
    referencesOfAll (span :: spans) = span.references ++ referencesOfAll spans := by
  rw [referencesOfAll]

@[simp]
theorem referencesOfAll_append (first second : List Span) :
    referencesOfAll (first ++ second) = referencesOfAll first ++ referencesOfAll second := by
  induction first with
  | nil => simp
  | cons span first ih => simp [ih]

@[simp]
theorem references_leaf (style : String) (reference : Reference) :
    (leaf style reference).references = [reference] := by
  simp [leaf, references]

@[simp]
theorem references_empty (style : String) : (empty style).references = [] := by
  simp [empty, references]

@[simp]
theorem references_add (span child : Span) :
    (span.add child).references = span.references ++ child.references := by
  cases span
  simp [add, references]

theorem mem_referencesOfAll_nest {r : Reference} :
    (spans : List Span) → r ∈ referencesOfAll (nest spans).toList → r ∈ referencesOfAll spans
  | [], h => h
  | [_], h => h
  | inner :: outer :: spans, h => by
    have hnested : r ∈ referencesOfAll (outer.add inner :: spans) :=
      mem_referencesOfAll_nest (outer.add inner :: spans) (nest_cons_cons inner outer spans ▸ h)
    simp only [referencesOfAll_cons, references_add, List.mem_append] at hnested ⊢
    rcases hnested with (houter | hinner) | hspans
    · exact .inr (.inl houter)
    · exact .inl hinner
    · exact .inr (.inr hspans)
  termination_by spans => spans.length

end Span

namespace Insertion

def references : Insertion → List Reference
  | .lookup _ l => l.references
  | _ => []

@[simp]
theorem references_withDate (today : CivilDate) (insertion : Insertion) :
    (insertion.withDate today).references = insertion.references := by
  cases insertion <;> rfl

end Insertion

namespace PageBlock

def insertions (b : PageBlock) : List Insertion :=
  b.left ++ b.center ++ b.right

@[simp]
theorem mem_insertions_insert {b : PageBlock} {slot : Slot} {insertion i : Insertion} :
    i ∈ (b.insert slot insertion).insertions ↔ i ∈ b.insertions ∨ i = insertion := by
  cases slot with
  | left | center | right =>
    simp only [insert, insertions, List.mem_append, List.mem_singleton]
    grind

theorem insertions_withDate (today : CivilDate) (b : PageBlock) :
    (b.withDate today).insertions = b.insertions.map (Insertion.withDate today) := by
  simp [insertions, withDate]

end PageBlock

namespace PageLayout

def insertions (l : PageLayout) : List Insertion :=
  (l.headers ++ l.footers).flatMap PageBlock.insertions

@[simp]
theorem mem_insertions_add {l : PageLayout} {b : PageBlock} {i : Insertion} :
    i ∈ (l.add b).insertions ↔ i ∈ l.insertions ∨ i ∈ b.insertions := by
  cases hedge : b.edge with
  | header | footer =>
    simp only [add, hedge, insertions, List.flatMap_append, List.flatMap_singleton,
      List.mem_append]
    grind

theorem insertions_withDate (today : CivilDate) (l : PageLayout) :
    (l.withDate today).insertions = l.insertions.map (Insertion.withDate today) := by
  simp [insertions, withDate, List.flatMap_map, List.map_flatMap, PageBlock.insertions_withDate]

/-- Dating a layout dates all that it has. -/
theorem eq_of_date_mem_insertions_withDate {today : CivilDate} {l : PageLayout} {style : String}
    {date : Option CivilDate} (h : .date style date ∈ (l.withDate today).insertions) :
    date = some today := by
  rw [insertions_withDate] at h
  obtain ⟨insertion, -, hdated⟩ := List.mem_map.1 h
  cases insertion with
  | date style' date' =>
    cases hdated
    rfl
  | pageNumber _ => cases hdated
  | literal _ _ => cases hdated
  | lookup _ _ => cases hdated

end PageLayout

def Document.allReferences (d : Document) : List Reference :=
  d.references ++ d.pdf.layout.insertions.flatMap Insertion.references

end Typikon
