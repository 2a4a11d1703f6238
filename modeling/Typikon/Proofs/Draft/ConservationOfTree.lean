import Typikon.Proofs.Draft.BodyOfTree
import Typikon.Proofs.Draft.Conservation

/-!
The events of a tree that nests as the grammar allows drop nothing. Lookups stand in positions there
and hold references only, so no lookup is entered within another, and the slot that one is entered
in is still open when it is left.
-/

namespace Typikon.Draft

variable {d : Draft} {loc : Location}

theorem droppedAll_append (d : Draft) (first second : List Event) :
    d.droppedAll (first ++ second) = d.droppedAll first ++ (d.events first).droppedAll second := by
  induction first generalizing d with
  | nil => rfl
  | cons event first ih =>
    simp only [List.cons_append, droppedAll, events_cons, ih, List.append_assoc]

theorem droppedAll_group (d : Draft) (loc : Location) (g : Node.Group) (children : List Node) :
    d.droppedAll (Node.group loc g children).events =
      d.dropped (.enter loc (.group g)) ++
        ((d.enter loc (.group g)).droppedAll (Node.eventsOfAll children) ++
          ((d.enter loc (.group g)).events (Node.eventsOfAll children)).dropped
            (.exit loc (.group g))) := by
  rw [Node.events, droppedAll, droppedAll_append, droppedAll, droppedAll, List.append_nil]
  rfl

/-- If each of some nodes drops nothing and keeps what the next one needs for that, so do all of
them. -/
theorem droppedAll_eventsOfAll {P : Draft → Prop} {nodes : List Node}
    (h : ∀ node ∈ nodes, ∀ d, P d → d.droppedAll node.events = [] ∧ P (d.events node.events))
    (hd : P d) :
    d.droppedAll (Node.eventsOfAll nodes) = [] ∧ P (d.events (Node.eventsOfAll nodes)) := by
  induction nodes generalizing d with
  | nil =>
    rw [Node.eventsOfAll]
    exact ⟨rfl, hd⟩
  | cons node nodes ih =>
    obtain ⟨hnode, hnext⟩ := h node List.mem_cons_self d hd
    have hlater : ∀ other ∈ nodes, ∀ d, P d →
        d.droppedAll other.events = [] ∧ P (d.events other.events) :=
      fun other hother => h other (List.mem_cons_of_mem node hother)
    obtain ⟨hnodes, hlast⟩ := ih hlater hnext
    rw [Node.eventsOfAll, droppedAll_append, events_append, hnode, hnodes]
    exact ⟨rfl, hlast⟩

mutual

theorem droppedAll_of_isText (d : Draft) :
    (node : Node) → node.head.IsText → node.Nests → d.droppedAll node.events = []
  | .atom loc a, htext, _ => by
    cases htext with
    | leaf content => rfl
  | .group loc g children, htext, hnests => by
    cases htext with
    | span style =>
      rw [Node.nests_group] at hnests
      rw [droppedAll_group, droppedAll_of_nestIn _ (Node.Group.isOfText_span style) children hnests]
      rfl

theorem droppedAll_of_nestIn (d : Draft) {g : Node.Group} (hg : g.IsOfText) :
    (nodes : List Node) → Node.NestIn g nodes → d.droppedAll (Node.eventsOfAll nodes) = []
  | [], _ => by
    rw [Node.eventsOfAll, droppedAll]
  | node :: nodes, hnest => by
    rw [Node.nestIn_cons] at hnest
    obtain ⟨hadmits, hnests, hrest⟩ := hnest
    rw [Node.eventsOfAll, droppedAll_append, droppedAll_of_isText d node (hg _ hadmits) hnests,
      droppedAll_of_nestIn _ hg nodes hrest]
    rfl

end

theorem slot_events_leaf (d : Draft) (loc : Location) (content : Content) :
    (d.events (Node.atom loc (.content content)).events).slot = d.slot := by
  have hentered : (d.event (.enter loc (.atom (.content content)))).slot = d.slot :=
    isViewOf_slot.event_eq_of_not_mem (by simp [Event.parts]) d
  rw [Node.events]
  exact hentered

theorem slot_events_of_lookup {library : Option Int} {nodes : List Node}
    (hnest : Node.NestIn (.lookup library) nodes) (d : Draft) :
    (d.events (Node.eventsOfAll nodes)).slot = d.slot := by
  induction nodes generalizing d with
  | nil =>
    rw [Node.eventsOfAll]
    rfl
  | cons node nodes ih =>
    rw [Node.nestIn_cons] at hnest
    obtain ⟨hadmits, -, hrest⟩ := hnest
    rw [Node.eventsOfAll, events_append, ih hrest]
    cases node with
    | group loc g children => cases hadmits
    | atom loc a =>
      cases hadmits with
      | absolute | relative => exact slot_events_leaf d loc _

/-- Outside paragraphs, and with no lookup open. -/
structure BetweenItems (d : Draft) : Prop where
  idle : d.body.IsIdle
  lookup : d.body.lookup = false

theorem BetweenItems.pending_eq (h : d.BetweenItems) : d.pending = [] := by
  have hlookup : d.lookup.isSome = false := h.lookup
  rw [Option.isSome_eq_false_iff, Option.isNone_iff_eq_none] at hlookup
  rw [pending, hlookup]
  rfl

/-- A lookup is left in the slot that it was entered in. -/
theorem BetweenItems.droppedAll_of_lookup (h : d.BetweenItems) (hslot : d.slot ≠ .outside)
    {library : Option Int} {children : List Node} (hnest : Node.NestIn (.lookup library) children) :
    d.droppedAll (Node.group loc (.lookup library) children).events = [] ∧
      (d.events (Node.group loc (.lookup library) children).events).slot = d.slot := by
  let entered := d.enter loc (.group (.lookup library))
  let filled := entered.events (Node.eventsOfAll children)
  have hentered : (d.event (.enter loc (.group (.lookup library)))).slot = d.slot :=
    isViewOf_slot.event_eq_of_not_mem (by simp [Event.parts]) d
  have hexited : (filled.event (.exit loc (.group (.lookup library)))).slot = filled.slot :=
    isViewOf_slot.event_eq_of_not_mem (by simp [Event.parts]) filled
  have hfilled : filled.slot = d.slot := (slot_events_of_lookup hnest entered).trans hentered
  have hchildren : entered.droppedAll (Node.eventsOfAll children) = [] :=
    droppedAll_of_nestIn entered (Node.Group.isOfText_lookup library) children hnest
  have hexit : filled.dropped (.exit loc (.group (.lookup library))) = [] := by
    rw [dropped, hfilled, if_neg hslot]
  constructor
  · calc
      d.droppedAll (Node.group loc (.lookup library) children).events =
          d.pending ++ (entered.droppedAll (Node.eventsOfAll children) ++
            filled.dropped (.exit loc (.group (.lookup library)))) :=
        droppedAll_group d loc _ children
      _ = [] := by rw [h.pending_eq, hchildren, hexit]; rfl
  · rw [Node.events, events_cons, events_append]
    exact hexited.trans hfilled

theorem BetweenItems.droppedAll_of_position (h : d.BetweenItems) (hslot : d.slot ≠ .outside)
    {slot : String} {node : Node} (hadmits : (Node.Group.position slot).Admits node.head)
    (hnests : node.Nests) :
    d.droppedAll node.events = [] ∧ (d.events node.events).slot = d.slot := by
  cases node with
  | atom loc a =>
    cases hadmits with
    | directive name =>
      have hentered : (d.event (.enter loc (.atom (.directive name)))).slot = d.slot :=
        isViewOf_slot.event_eq_of_not_mem (by simp [Event.parts]) d
      rw [Node.events]
      exact ⟨rfl, hentered⟩
    | literal text => exact ⟨rfl, slot_events_leaf d loc _⟩
  | group loc g children =>
    rw [Node.nests_group] at hnests
    cases hadmits with
    | lookup library => exact h.droppedAll_of_lookup hslot hnests

theorem slot_enterPosition (d : Draft) (loc : Location) (slot : String) :
    (d.enterPosition loc slot).slot ≠ .outside := by
  unfold enterPosition
  split
  · exact SlotState.noConfusion
  · split <;> exact SlotState.noConfusion

theorem BetweenItems.of_body_eq {next : Draft} (h : d.BetweenItems) (hbody : next.body = d.body) :
    next.BetweenItems :=
  ⟨by rw [hbody]; exact h.idle, by rw [hbody]; exact h.lookup⟩

theorem BetweenItems.droppedAll_of_pageBlock (h : d.BetweenItems) {edge : PageEdge}
    {parity : Parity} {node : Node} (hadmits : (Node.Group.pageBlock edge parity).Admits node.head)
    (hnests : node.Nests) : d.droppedAll node.events = [] := by
  cases node with
  | atom loc a => cases hadmits
  | group loc g children =>
    cases hadmits with
    | position slot =>
      rw [Node.nests_group, Node.nestIn_iff_forall] at hnests
      let InPosition (d : Draft) : Prop := d.BetweenItems ∧ d.slot ≠ .outside
      have hentered : InPosition (d.enter loc (.group (.position slot))) :=
        ⟨h.of_body_eq (d.body_event (.enter loc (.group (.position slot)))),
          slot_enterPosition { d with last := loc } loc slot⟩
      have hchild : ∀ node ∈ children, ∀ d, InPosition d →
          d.droppedAll node.events = [] ∧ InPosition (d.events node.events) := by
        rintro node hnode d ⟨hd, hslot⟩
        obtain ⟨hadmits, hnests⟩ := hnests node hnode
        obtain ⟨hdropped, hkept⟩ := hd.droppedAll_of_position hslot hadmits hnests
        have hbody : (d.events node.events).body = d.body := by
          rw [body_events, hd.idle.events_of_position hd.lookup hadmits hnests]
        exact ⟨hdropped, hd.of_body_eq hbody, hkept ▸ hslot⟩
      rw [droppedAll_group, (droppedAll_eventsOfAll hchild hentered).1]
      rfl

theorem BetweenItems.droppedAll_of_template (h : d.BetweenItems) {node : Node}
    (hadmits : Node.Group.template.Admits node.head) (hnests : node.Nests) :
    d.droppedAll node.events = [] := by
  cases node with
  | atom loc a =>
    cases hadmits with
    | property name value => rfl
  | group loc g children =>
    rw [Node.nests_group] at hnests
    cases hadmits with
    | paragraph style version =>
      rw [droppedAll_group,
        droppedAll_of_nestIn _ (Node.Group.isOfText_paragraph style version) children hnests]
      rfl
    | pageBlock edge parity =>
      rw [Node.nestIn_iff_forall] at hnests
      have hentered : (d.enter loc (.group (.pageBlock edge parity))).BetweenItems :=
        h.of_body_eq (d.body_event (.enter loc (.group (.pageBlock edge parity))))
      have hchild : ∀ node ∈ children, ∀ d : Draft, d.BetweenItems →
          d.droppedAll node.events = [] ∧ (d.events node.events).BetweenItems := by
        intro node hnode d hd
        obtain ⟨hadmits, hnests⟩ := hnests node hnode
        have hbody : (d.events node.events).body = d.body := by
          rw [body_events, hd.idle.events_of_pageBlock hd.lookup hadmits hnests]
        exact ⟨hd.droppedAll_of_pageBlock hadmits hnests, hd.of_body_eq hbody⟩
      rw [droppedAll_group, (droppedAll_eventsOfAll hchild hentered).1]
      rfl

/-- The items of a template that nests as the grammar allows drop nothing. -/
theorem BetweenItems.droppedAll_of_items (h : d.BetweenItems) {items : List Node}
    (hnest : Node.NestIn .template items) : d.droppedAll (Node.eventsOfAll items) = [] := by
  rw [Node.nestIn_iff_forall] at hnest
  have hitem : ∀ item ∈ items, ∀ d : Draft, d.BetweenItems →
      d.droppedAll item.events = [] ∧ (d.events item.events).BetweenItems := by
    intro item hmem d hd
    obtain ⟨hadmits, hnests⟩ := hnest item hmem
    refine ⟨hd.droppedAll_of_template hadmits hnests, ?_, ?_⟩
    · rw [body_events, hd.idle.events_of_template hd.lookup hadmits hnests]
      exact ⟨hd.idle.paragraph, hd.idle.spans⟩
    · rw [body_events, hd.idle.events_of_template hd.lookup hadmits hnests]
      exact hd.lookup
  exact (droppedAll_eventsOfAll hitem h).1

end Typikon.Draft
