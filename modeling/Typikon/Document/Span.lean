import Typikon.Document.Reference

/-!
Paragraphs of documents. A paragraph is made of spans, which nest to any depth; the innermost ones
hold the references.
-/

namespace Typikon

inductive Span where
  | mk (style : String) (children : List Span) (reference : Option Reference)

namespace Span

def style : Span → String
  | ⟨style, _, _⟩ => style

def children : Span → List Span
  | ⟨_, children, _⟩ => children

def reference : Span → Option Reference
  | ⟨_, _, reference⟩ => reference

/-- A span that content is yet to be put in. -/
def empty (style : String) : Span :=
  ⟨style, [], none⟩

def leaf (style : String) (reference : Reference) : Span :=
  ⟨style, [], some reference⟩

def add : Span → Span → Span
  | ⟨style, children, reference⟩, child => ⟨style, children ++ [child], reference⟩

mutual

def depth : Span → Nat
  | ⟨_, children, _⟩ => depthOfAll children + 1

def depthOfAll : List Span → Nat
  | [] => 0
  | span :: spans => max span.depth (depthOfAll spans)

end

mutual

def references : Span → List Reference
  | ⟨_, children, reference⟩ => reference.toList ++ referencesOfAll children

def referencesOfAll : List Span → List Reference
  | [] => []
  | span :: spans => span.references ++ referencesOfAll spans

end

/-- The span that open spans come to when all are closed, each within the next. The innermost comes
first. -/
def nest (spans : List Span) : Option Span :=
  spans.foldl (fun inner outer => some (inner.elim outer outer.add)) none

@[simp]
theorem nest_nil : nest [] = none := rfl

theorem nest_cons_cons (inner outer : Span) (spans : List Span) :
    nest (inner :: outer :: spans) = nest (outer.add inner :: spans) := rfl

end Span

structure Paragraph where
  style : String
  spans : List Span
  /-- The span that tells which version the text is from, where one is asked for. -/
  version : Option Span

namespace Paragraph

def empty (style : String) : Paragraph :=
  ⟨style, [], none⟩

def add (p : Paragraph) (span : Span) : Paragraph :=
  { p with spans := p.spans ++ [span] }

/-- The span that every version is told with. -/
def versionSpan : Span :=
  .leaf "versiondesignation" (.absolute "properties/version.designation")

def references (p : Paragraph) : List Reference :=
  Span.referencesOfAll p.spans ++ Span.referencesOfAll p.version.toList

end Paragraph

end Typikon
