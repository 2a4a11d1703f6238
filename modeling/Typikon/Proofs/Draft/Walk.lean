import Typikon.Draft.Event

/-!
Taking a tree node by node comes to the same as taking its events one after another.
-/

namespace Typikon.Draft

@[simp]
theorem events_nil (d : Draft) : d.events [] = d := rfl

@[simp]
theorem events_cons (d : Draft) (event : Event) (events : List Event) :
    d.events (event :: events) = (d.event event).events events := rfl

theorem events_append (d : Draft) (first second : List Event) :
    d.events (first ++ second) = (d.events first).events second :=
  List.foldl_append

mutual

theorem events_node (d : Draft) : (node : Node) → d.events node.events = d.node node
  | .atom loc a => by
    rw [Node.events, Draft.node]
    rfl
  | .group loc g children => by
    rw [Node.events, Draft.node, events_cons, events_append, ← events_eventsOfAll]
    rfl

theorem events_eventsOfAll (d : Draft) :
    (nodes : List Node) → d.events (Node.eventsOfAll nodes) = d.nodes nodes
  | [] => by
    rw [Node.eventsOfAll, Draft.nodes, events_nil]
  | node :: nodes => by
    rw [Node.eventsOfAll, Draft.nodes, events_append, events_node, events_eventsOfAll]

end

end Typikon.Draft
