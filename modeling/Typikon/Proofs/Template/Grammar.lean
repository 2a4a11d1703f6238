import Typikon.Template.Node

/-!
Trees that nest as the grammar of templates allows: properties, page blocks and paragraphs in a
template, positions in a page block, directives, lookups and literals in a position, references in a
lookup, and spans and leaves in a paragraph or a span.
-/

namespace Typikon.Node

namespace Group

/-- What may stand right inside a group. -/
inductive Admits : Group → Head → Prop where
  | property (name : String) (value : Value) : Admits .template (.atom (.property name value))
  | pageBlock (edge : PageEdge) (parity : Parity) :
    Admits .template (.group (.pageBlock edge parity))
  | paragraph (style : String) (version : Bool) :
    Admits .template (.group (.paragraph style version))
  | position {edge : PageEdge} {parity : Parity} (slot : String) :
    Admits (.pageBlock edge parity) (.group (.position slot))
  | directive {slot : String} (name : String) : Admits (.position slot) (.atom (.directive name))
  | lookup {slot : String} (library : Option Int) :
    Admits (.position slot) (.group (.lookup library))
  | literal {slot : String} (text : String) :
    Admits (.position slot) (.atom (.content (.literal text)))
  | absolute {library : Option Int} (path : String) :
    Admits (.lookup library) (.atom (.content (.absolute path)))
  | relative {library : Option Int} (path : String) (overrides : List Override) :
    Admits (.lookup library) (.atom (.content (.relative path overrides)))
  | leafOfParagraph {style : String} {version : Bool} (content : Content) :
    Admits (.paragraph style version) (.atom (.content content))
  | spanOfParagraph {style : String} {version : Bool} (inner : String) :
    Admits (.paragraph style version) (.group (.span inner))
  | leafOfSpan {style : String} (content : Content) :
    Admits (.span style) (.atom (.content content))
  | spanOfSpan {style : String} (inner : String) : Admits (.span style) (.group (.span inner))

end Group

/-- The leaves and spans. -/
inductive Head.IsText : Head → Prop where
  | leaf (content : Content) : IsText (.atom (.content content))
  | span (style : String) : IsText (.group (.span style))

namespace Group

/-- The groups that hold nothing else: paragraphs, spans and lookups. -/
def IsOfText (g : Group) : Prop :=
  ∀ head, g.Admits head → head.IsText

theorem isOfText_paragraph (style : String) (version : Bool) :
    (Group.paragraph style version).IsOfText := by
  intro head h
  cases h with
  | leafOfParagraph content => exact .leaf content
  | spanOfParagraph inner => exact .span inner

theorem isOfText_span (style : String) : (Group.span style).IsOfText := by
  intro head h
  cases h with
  | leafOfSpan content => exact .leaf content
  | spanOfSpan inner => exact .span inner

theorem isOfText_lookup (number : Option Int) : (Group.lookup number).IsOfText := by
  intro head h
  cases h with
  | absolute path => exact .leaf (.absolute path)
  | relative path overrides => exact .leaf (.relative path overrides)

end Group

mutual

/-- A tree in which every node may stand where it does, whatever the tree itself stands in. -/
def Nests : Node → Prop
  | .atom _ _ => True
  | .group _ g children => NestIn g children

/-- Trees that may stand one after another in a group. -/
def NestIn (g : Group) : List Node → Prop
  | [] => True
  | node :: nodes => g.Admits node.head ∧ node.Nests ∧ NestIn g nodes

end

@[simp]
theorem nests_atom (loc : Location) (a : Atom) : (Node.atom loc a).Nests := by
  unfold Nests
  trivial

@[simp]
theorem nests_group (loc : Location) (g : Group) (children : List Node) :
    (Node.group loc g children).Nests ↔ NestIn g children := by
  rw [Nests]

@[simp]
theorem nestIn_nil (g : Group) : NestIn g [] := by
  unfold NestIn
  trivial

@[simp]
theorem nestIn_cons (g : Group) (node : Node) (nodes : List Node) :
    NestIn g (node :: nodes) ↔ g.Admits node.head ∧ node.Nests ∧ NestIn g nodes := by
  rw [NestIn]

theorem nestIn_iff_forall {g : Group} {nodes : List Node} :
    NestIn g nodes ↔ ∀ node ∈ nodes, g.Admits node.head ∧ node.Nests := by
  induction nodes with
  | nil => simp
  | cons node nodes ih => simp [ih, and_assoc]

end Typikon.Node
