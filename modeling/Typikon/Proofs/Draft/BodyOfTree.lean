import Typikon.Proofs.Document.Image
import Typikon.Proofs.Draft.Body
import Typikon.Proofs.Template.Grammar

/-!
What the events of a tree do to a body. If the tree nests as the grammar allows, the text of a
paragraph attaches the spans that it stands for, a paragraph adds the paragraph that it stands for,
and a page block leaves the body as it is.
-/

namespace Typikon.Body

theorem attachAll_eq (b : Body) (spans : List Span) :
    b.attachAll spans =
      { b with
        paragraph := (b.attachAll spans).paragraph
        spans := (b.attachAll spans).spans } := by
  obtain ⟨dating, closed, paragraph, open_, lookup⟩ := b
  cases open_ with
  | nil => cases paragraph <;> rfl
  | cons parent outer => rfl

@[simp]
theorem dating_attachAll (b : Body) (spans : List Span) :
    (b.attachAll spans).dating = b.dating := by
  rw [attachAll_eq]

@[simp]
theorem lookup_attachAll (b : Body) (spans : List Span) :
    (b.attachAll spans).lookup = b.lookup := by
  rw [attachAll_eq]

theorem addLeaf_eq {b : Body} (h : b.lookup = false) (content : Content) :
    b.addLeaf content =
      b.attachAll [.leaf content.style (Resolution.ofContent b.dating.day content).reference] := by
  simp [addLeaf, h]

theorem IsIdle.addLeaf_eq_self {b : Body} (h : b.IsIdle) (content : Content) :
    b.addLeaf content = b := by
  simp [addLeaf, h.attachAll_eq]

theorem events_eventsOfAll_eq_self {b : Body} {nodes : List Node}
    (h : ∀ node ∈ nodes, b.events node.events = b) : b.events (Node.eventsOfAll nodes) = b := by
  induction nodes with
  | nil => simp [Node.eventsOfAll]
  | cons node nodes ih =>
    rw [Node.eventsOfAll, events_append, h node (by simp)]
    exact ih fun other hother => h other (by simp [hother])

/-! ### Page blocks -/

theorem IsIdle.events_of_lookup {b : Body} (h : b.IsIdle) {library : Option Int} {node : Node}
    (hadmits : (Node.Group.lookup library).Admits node.head) : b.events node.events = b := by
  cases node with
  | group loc g children => cases hadmits
  | atom loc a =>
    have hleaf (content : Content) : (b.enter (.atom (.content content))) = b :=
      h.addLeaf_eq_self content
    cases hadmits <;> simp [Node.events, event, exit, hleaf]

theorem IsIdle.events_of_position {b : Body} (h : b.IsIdle) (hlookup : b.lookup = false)
    {slot : String} {node : Node} (hadmits : (Node.Group.position slot).Admits node.head)
    (hnests : node.Nests) : b.events node.events = b := by
  cases node with
  | atom loc a =>
    cases hadmits with
    | directive name => rfl
    | literal text => simp [Node.events, event, enter, exit, h.addLeaf_eq_self]
  | group loc g children =>
    cases hadmits with
    | lookup library =>
      have hopen : ({ b with lookup := true } : Body).IsIdle := ⟨h.paragraph, h.spans⟩
      have hchildren :
          ({ b with lookup := true } : Body).events (Node.eventsOfAll children) =
            { b with lookup := true } := by
        apply events_eventsOfAll_eq_self
        intro node hnode
        rw [Node.nests_group, Node.nestIn_iff_forall] at hnests
        exact hopen.events_of_lookup (hnests node hnode).1
      simp [Node.events, event, enter, exit, hchildren, ← hlookup]

theorem IsIdle.events_of_pageBlock {b : Body} (h : b.IsIdle) (hlookup : b.lookup = false)
    {edge : PageEdge} {parity : Parity} {node : Node}
    (hadmits : (Node.Group.pageBlock edge parity).Admits node.head) (hnests : node.Nests) :
    b.events node.events = b := by
  cases node with
  | atom loc a => cases hadmits
  | group loc g children =>
    cases hadmits with
    | position slot =>
      have hchildren : b.events (Node.eventsOfAll children) = b := by
        apply events_eventsOfAll_eq_self
        intro node hnode
        rw [Node.nests_group, Node.nestIn_iff_forall] at hnests
        exact h.events_of_position hlookup (hnests node hnode).1 (hnests node hnode).2
      simp [Node.events, event, enter, exit, hchildren]

/-! ### Paragraphs -/

mutual

theorem events_of_isText {b : Body} (hlookup : b.lookup = false) :
    (node : Node) → node.head.IsText → node.Nests →
      b.events node.events = b.attachAll [node.span b.dating.day]
  | .atom loc a, htext, _ => by
    cases htext with
    | leaf content =>
      simp [Node.events, event, enter, exit, addLeaf_eq hlookup, Node.span, Span.leaf]
  | .group loc g children, htext, hnests => by
    cases htext with
    | span style =>
      rw [Node.nests_group] at hnests
      have hchildren : (b.openSpan style).events (Node.eventsOfAll children) =
          (b.openSpan style).attachAll (Node.spans b.dating.day children) :=
        events_of_nestIn (b := b.openSpan style) hlookup (Node.Group.isOfText_span style) children
          hnests
      simp only [Node.events, events_cons, events_append, event, enter, hchildren, events_nil, exit,
        Node.span]
      exact closeSpan_attachAll_openSpan b style (Node.spans b.dating.day children)

theorem events_of_nestIn {b : Body} (hlookup : b.lookup = false) {g : Node.Group}
    (hg : g.IsOfText) :
    (nodes : List Node) → Node.NestIn g nodes →
      b.events (Node.eventsOfAll nodes) = b.attachAll (Node.spans b.dating.day nodes)
  | [], _ => by
    simp [Node.eventsOfAll, Node.spans]
  | node :: nodes, hnest => by
    rw [Node.nestIn_cons] at hnest
    obtain ⟨hadmits, hnests, hrest⟩ := hnest
    have hnode := events_of_isText hlookup node (hg _ hadmits) hnests
    have hnodes := events_of_nestIn (b := b.attachAll [node.span b.dating.day])
      (by simp [hlookup]) hg nodes hrest
    rw [Node.eventsOfAll, events_append, hnode, hnodes, attachAll_attachAll, dating_attachAll,
      List.singleton_append, Node.spans]

end

/-! ### Templates -/

theorem IsIdle.events_of_template {b : Body} (h : b.IsIdle) (hlookup : b.lookup = false)
    {node : Node} (hadmits : Node.Group.template.Admits node.head) (hnests : node.Nests) :
    b.events node.events =
      { b with
        dating := b.dating.after node
        closed := b.closed ++ (node.paragraph? b.dating.day).toList } := by
  cases node with
  | atom loc a =>
    cases hadmits with
    | property name value => simp [Node.events, event, enter, exit, Dating.after, Node.paragraph?]
  | group loc g children =>
    rw [Node.nests_group] at hnests
    cases hadmits with
    | pageBlock edge parity =>
      have hchildren : b.events (Node.eventsOfAll children) = b := by
        apply events_eventsOfAll_eq_self
        intro node hnode
        rw [Node.nestIn_iff_forall] at hnests
        exact h.events_of_pageBlock hlookup (hnests node hnode).1 (hnests node hnode).2
      simp [Node.events, event, enter, exit, hchildren, Dating.after, Node.paragraph?]
    | paragraph style version =>
      have hopen : (b.openParagraph style).lookup = false := by
        simp [openParagraph, h.paragraph, hlookup]
      have hday : (b.openParagraph style).dating = b.dating := by
        simp [openParagraph, h.paragraph]
      have hchildren :=
        events_of_nestIn hopen (Node.Group.isOfText_paragraph style version) children
        hnests
      have hsome : ((b.openParagraph style).attachAll
          (Node.spans b.dating.day children)).paragraph.isSome := by
        simp [attachAll, openParagraph, h.paragraph, h.spans]
      rw [hday] at hchildren
      simp only [Node.events, events_cons, events_append, event, enter, hchildren, events_nil, exit,
        hsome, if_true]
      rw [h.closeParagraph_attachAll_openParagraph]
      rfl

/-- The items of a template add the paragraphs that they stand for. -/
theorem IsIdle.events_of_items {b : Body} (h : b.IsIdle) (hlookup : b.lookup = false)
    {items : List Node} (hnest : Node.NestIn .template items) :
    (b.events (Node.eventsOfAll items)).IsIdle ∧
      (b.events (Node.eventsOfAll items)).closed = b.closed ++ b.dating.paragraphs items := by
  induction items generalizing b with
  | nil => simpa [Node.eventsOfAll, Dating.paragraphs] using h
  | cons item items ih =>
    rw [Node.nestIn_cons] at hnest
    obtain ⟨hadmits, hnests, hrest⟩ := hnest
    let next : Body :=
      { b with
        dating := b.dating.after item
        closed := b.closed ++ (item.paragraph? b.dating.day).toList }
    have hitem : b.events item.events = next := h.events_of_template hlookup hadmits hnests
    obtain ⟨hidle, hclosed⟩ := ih (b := next) ⟨h.paragraph, h.spans⟩ hlookup hrest
    rw [Node.eventsOfAll, events_append, hitem]
    refine ⟨hidle, ?_⟩
    rw [hclosed, Dating.paragraphs, List.append_assoc]

end Typikon.Body
