import Typikon.Template.Event

/-!
Traversal with a stack. The events of nodes can be had one at a time, from a stack of nodes that are
yet to be entered and of nodes that are yet to be left. What the stack has yet to yield is the
events of its nodes, so in the end it has yielded those of the whole tree.
-/

namespace Typikon

theorem Node.events_eq (node : Node) :
    node.events =
      .enter node.location node.head ::
        (Node.eventsOfAll node.children ++ [.exit node.location node.head]) := by
  cases node with
  | atom loc a => rw [Node.events, Node.children, Node.eventsOfAll]; rfl
  | group loc g children => rw [Node.events]; rfl

/-- What a traversal has yet to do. -/
inductive Pending where
  | enter (node : Node)
  | exit (node : Node)

namespace Pending

/-- The next event and what is pending after it. A node that is entered leaves its children to be
entered, the first of them next, and after them itself to be left. -/
def next? : List Pending → Option (Event × List Pending)
  | [] => none
  | .enter node :: rest =>
    some (.enter node.location node.head, node.children.map .enter ++ .exit node :: rest)
  | .exit node :: rest => some (.exit node.location node.head, rest)

def events : Pending → List Event
  | .enter node => node.events
  | .exit node => [.exit node.location node.head]

/-- The events that are yet to come. -/
def remaining (pending : List Pending) : List Event :=
  pending.flatMap events

@[simp]
theorem remaining_cons (first : Pending) (rest : List Pending) :
    remaining (first :: rest) = first.events ++ remaining rest := rfl

@[simp]
theorem remaining_append (first second : List Pending) :
    remaining (first ++ second) = remaining first ++ remaining second :=
  List.flatMap_append

theorem remaining_map_enter (nodes : List Node) :
    remaining (nodes.map .enter) = Node.eventsOfAll nodes := by
  induction nodes with
  | nil => rw [Node.eventsOfAll]; rfl
  | cons node nodes ih => rw [List.map_cons, remaining_cons, ih, Node.eventsOfAll]; rfl

theorem next?_eq_none_iff {pending : List Pending} : next? pending = none ↔ pending = [] := by
  cases pending with
  | nil => simp [next?]
  | cons first rest => cases first <;> simp [next?]

/-- A step yields the first of the events that are yet to come, and the others are still to come. -/
theorem remaining_of_next? {pending rest : List Pending} {event : Event}
    (h : next? pending = some (event, rest)) : remaining pending = event :: remaining rest := by
  unfold next? at h
  split at h
  · cases h
  next node rest =>
    cases h
    simp [events, Node.events_eq node, remaining_map_enter]
  next node rest =>
    cases h
    simp [events]

theorem length_remaining_lt_of_next? {pending rest : List Pending} {event : Event}
    (h : next? pending = some (event, rest)) :
    (remaining rest).length < (remaining pending).length := by
  simp [remaining_of_next? h]

end Pending

end Typikon
