import Typikon.Proofs.Draft.Dating

/-!
The paragraphs that the nodes of a template stand for, by recursion on the nodes. A span stands for
a span of the same style, a leaf for a span that has a reference and no children, and a paragraph
for a paragraph of the same style. References are resolved for the day that is in force where the
paragraph stands.
-/

namespace Typikon

namespace Node

mutual

/-- The span that a leaf or span of a template stands for on a day. No other node stands in a
paragraph. -/
def span (day : LiturgicalDay) : Node → Span
  | .atom _ (.content content) =>
    ⟨content.style, [], some (Resolution.ofContent day content).reference⟩
  | .group _ (.span style) children => ⟨style, spans day children, none⟩
  | _ => .empty ""

def spans (day : LiturgicalDay) : List Node → List Span
  | [] => []
  | node :: nodes => node.span day :: spans day nodes

end

def paragraph? (day : LiturgicalDay) : Node → Option Paragraph
  | .group _ (.paragraph style version) children =>
    some ⟨style, spans day children, if version then some Paragraph.versionSpan else none⟩
  | _ => none

mutual

/-- The references of the leaves of a node, in the order of the source. -/
def references (day : LiturgicalDay) : Node → List Reference
  | .atom _ (.content content) => [(Resolution.ofContent day content).reference]
  | .group _ (.span _) children => referencesOfAll day children
  | _ => []

def referencesOfAll (day : LiturgicalDay) : List Node → List Reference
  | [] => []
  | node :: nodes => node.references day ++ referencesOfAll day nodes

end

mutual

theorem references_span (day : LiturgicalDay) :
    (node : Node) → (node.span day).references = node.references day
  | .atom _ (.content content) => by
    simp [span, references, Span.references, Span.referencesOfAll]
  | .group _ (.span style) children => by
    simp [span, references, Span.references, references_spans day children]
  | .atom _ (.property _ _) => rfl
  | .atom _ (.directive _) => rfl
  | .group _ .template _ => rfl
  | .group _ (.pageBlock _ _) _ => rfl
  | .group _ (.position _) _ => rfl
  | .group _ (.lookup _) _ => rfl
  | .group _ (.paragraph _ _) _ => rfl

theorem references_spans (day : LiturgicalDay) :
    (nodes : List Node) → Span.referencesOfAll (spans day nodes) = referencesOfAll day nodes
  | [] => rfl
  | node :: nodes => by
    rw [spans, Span.referencesOfAll, references_span day node, references_spans day nodes,
      referencesOfAll]

end

/-- The references that a paragraph of a template stands for: those of its leaves, and then that of
the version, where one is asked for. -/
def paragraphReferences (day : LiturgicalDay) : Node → List Reference
  | .group _ (.paragraph _ version) children =>
    referencesOfAll day children ++
      if version then [.absolute "properties/version.designation"] else []
  | _ => []

theorem references_paragraph? (day : LiturgicalDay) (node : Node) :
    (node.paragraph? day).toList.flatMap Paragraph.references = node.paragraphReferences day := by
  cases node with
  | atom loc a => rfl
  | group loc g children =>
    cases g with
    | paragraph style version =>
      cases version <;>
        simp [paragraph?, paragraphReferences, Paragraph.references, references_spans,
          Span.referencesOfAll, Paragraph.versionSpan, Span.leaf, Span.references]
    | _ => rfl

end Node

namespace Dating

/-- What is in force after an item of a template. -/
def after (t : Dating) : Node → Dating
  | .atom _ (.property name value) => t.set name value
  | _ => t

/-- The paragraphs that items of a template stand for. -/
def paragraphs (t : Dating) : List Node → List Paragraph
  | [] => []
  | item :: items => (item.paragraph? t.day).toList ++ (t.after item).paragraphs items

/-- The references that items of a template stand for. -/
def references (t : Dating) : List Node → List Reference
  | [] => []
  | item :: items => item.paragraphReferences t.day ++ (t.after item).references items

theorem references_paragraphs (t : Dating) (items : List Node) :
    (t.paragraphs items).flatMap Paragraph.references = t.references items := by
  induction items generalizing t with
  | nil => rfl
  | cons item items ih =>
    rw [paragraphs, List.flatMap_append, Node.references_paragraph?, ih, references]

end Dating

end Typikon
