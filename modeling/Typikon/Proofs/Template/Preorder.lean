import Typikon.Template.Event

/-!
The nodes of a tree in the order of the source, each before what stands in it. This is the order in
which the events of the tree enter them.
-/

namespace Typikon

namespace Node

mutual

def preorder : Node → List (Location × Head)
  | .atom loc a => [(loc, .atom a)]
  | .group loc g children => (loc, .group g) :: preorderOfAll children

def preorderOfAll : List Node → List (Location × Head)
  | [] => []
  | node :: nodes => node.preorder ++ preorderOfAll nodes

end

@[simp]
theorem preorderOfAll_nil : preorderOfAll [] = [] := by
  rw [preorderOfAll]

@[simp]
theorem preorderOfAll_atom (loc : Location) (a : Atom) :
    preorderOfAll [.atom loc a] = [(loc, .atom a)] := by
  rw [preorderOfAll, preorder, preorderOfAll_nil]
  rfl

@[simp]
theorem preorderOfAll_group (loc : Location) (g : Group) (children : List Node) :
    preorderOfAll [.group loc g children] = (loc, .group g) :: preorderOfAll children := by
  rw [preorderOfAll, preorder, preorderOfAll_nil, List.append_nil]

theorem preorderOfAll_append (first second : List Node) :
    preorderOfAll (first ++ second) = preorderOfAll first ++ preorderOfAll second := by
  induction first with
  | nil => rw [List.nil_append, preorderOfAll_nil, List.nil_append]
  | cons node first ih =>
    rw [List.cons_append, preorderOfAll, ih, preorderOfAll, List.append_assoc]

end Node

/-- The node that an event enters. -/
def Event.entered? : Event → Option (Location × Node.Head)
  | .enter loc head => some (loc, head)
  | .exit _ _ => none

namespace Node

mutual

theorem filterMap_entered?_events :
    (node : Node) → node.events.filterMap Event.entered? = node.preorder
  | .atom loc a => by
    rw [events, preorder]
    rfl
  | .group loc g children => by
    have hentered : (Event.enter loc (.group g)).entered? = some (loc, .group g) := rfl
    rw [events, preorder, List.filterMap_cons_some hentered, List.filterMap_append,
      filterMap_entered?_eventsOfAll children]
    exact congrArg _ (List.append_nil _)

theorem filterMap_entered?_eventsOfAll :
    (nodes : List Node) → (eventsOfAll nodes).filterMap Event.entered? = preorderOfAll nodes
  | [] => by
    rw [eventsOfAll, preorderOfAll]
    rfl
  | node :: nodes => by
    rw [eventsOfAll, preorderOfAll, List.filterMap_append, filterMap_entered?_events node,
      filterMap_entered?_eventsOfAll nodes]

end

end Node

end Typikon
