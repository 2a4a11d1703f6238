import Typikon.Document.Basic

/-!
The pieces of a document: what the leaves and directives of its template come to, wherever they
stand. In its paragraphs these are the spans that have a reference, in its headers and footers the
dates, the page numbers, the literal texts and each single reference of a lookup.
-/

namespace Typikon

inductive Piece where
  | leaf (style : String) (reference : Reference)
  | literal (text : String)
  | lookup (reference : Reference)
  | date
  | pageNumber
deriving DecidableEq

namespace Span

mutual

def pieces : Span → List Piece
  | ⟨style, children, reference⟩ => (reference.map (.leaf style)).toList ++ piecesOfAll children

def piecesOfAll : List Span → List Piece
  | [] => []
  | span :: spans => span.pieces ++ piecesOfAll spans

end

@[simp]
theorem piecesOfAll_nil : piecesOfAll [] = [] := by
  rw [piecesOfAll]

@[simp]
theorem piecesOfAll_cons (span : Span) (spans : List Span) :
    piecesOfAll (span :: spans) = span.pieces ++ piecesOfAll spans := by
  rw [piecesOfAll]

@[simp]
theorem piecesOfAll_append (first second : List Span) :
    piecesOfAll (first ++ second) = piecesOfAll first ++ piecesOfAll second := by
  induction first with
  | nil => simp
  | cons span first ih => simp [ih]

@[simp]
theorem pieces_leaf (style : String) (reference : Reference) :
    (leaf style reference).pieces = [.leaf style reference] := by
  simp [leaf, pieces]

@[simp]
theorem pieces_empty (style : String) : (empty style).pieces = [] := by
  simp [empty, pieces]

@[simp]
theorem pieces_add (span child : Span) : (span.add child).pieces = span.pieces ++ child.pieces := by
  cases span
  simp [add, pieces]

/-- Closing open spans, each within the next, leaves their pieces in order. -/
theorem piecesOfAll_nest :
    (spans : List Span) → piecesOfAll (nest spans).toList = piecesOfAll spans.reverse
  | [] => rfl
  | [span] => rfl
  | inner :: outer :: spans => by
    rw [nest_cons_cons, piecesOfAll_nest (outer.add inner :: spans)]
    simp
termination_by spans => spans.length

theorem perm_piecesOfAll_nest (spans : List Span) :
    (piecesOfAll (nest spans).toList).Perm (piecesOfAll spans) := by
  rw [piecesOfAll_nest]
  induction spans with
  | nil => rfl
  | cons span spans ih =>
    rw [List.reverse_cons, piecesOfAll_append, piecesOfAll_cons, piecesOfAll_nil, List.append_nil,
      piecesOfAll_cons]
    exact List.perm_append_comm.trans (ih.append_left span.pieces)

end Span

/-- The version span is not among the pieces, since no leaf of the template stands for it. -/
def Paragraph.pieces (p : Paragraph) : List Piece :=
  Span.piecesOfAll p.spans

def Insertion.pieces : Insertion → List Piece
  | .date _ _ => [.date]
  | .pageNumber _ => [.pageNumber]
  | .literal _ text => [.literal text]
  | .lookup _ l => l.references.map .lookup

@[simp]
theorem Insertion.pieces_withDate (today : CivilDate) (insertion : Insertion) :
    (insertion.withDate today).pieces = insertion.pieces := by
  cases insertion <;> rfl

namespace PageBlock

def pieces (b : PageBlock) : List Piece :=
  (b.left ++ b.center ++ b.right).flatMap Insertion.pieces

@[simp]
theorem pieces_empty (edge : PageEdge) (parity : Parity) : (empty edge parity).pieces = [] := rfl

theorem perm_pieces_insert (b : PageBlock) (slot : Slot) (insertion : Insertion) :
    (b.insert slot insertion).pieces.Perm (b.pieces ++ insertion.pieces) := by
  rw [List.perm_iff_count]
  intro piece
  cases slot with
  | left | center | right =>
    simp only [insert, pieces, List.flatMap_append, List.flatMap_singleton, List.count_append]
    omega

@[simp]
theorem pieces_withDate (today : CivilDate) (b : PageBlock) :
    (b.withDate today).pieces = b.pieces := by
  simp [pieces, withDate, List.flatMap_map]

end PageBlock

namespace PageLayout

def pieces (l : PageLayout) : List Piece :=
  (l.headers ++ l.footers).flatMap PageBlock.pieces

theorem perm_pieces_add (l : PageLayout) (b : PageBlock) :
    (l.add b).pieces.Perm (l.pieces ++ b.pieces) := by
  rw [List.perm_iff_count]
  intro piece
  cases hedge : b.edge with
  | header | footer =>
    simp only [add, hedge, pieces, List.flatMap_append, List.flatMap_singleton, List.count_append]
    omega

@[simp]
theorem pieces_withDate (today : CivilDate) (l : PageLayout) :
    (l.withDate today).pieces = l.pieces := by
  simp [pieces, withDate, List.flatMap_map]

end PageLayout

def Document.pieces (d : Document) : List Piece :=
  d.paragraphs.flatMap Paragraph.pieces ++ d.pdf.layout.pieces

end Typikon
