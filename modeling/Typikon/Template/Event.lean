import Typikon.Template.Node

/-!
Events: the entering and leaving of each node of a template, in depth-first order. Events know nodes
without their children, so a stream of them need not come from a tree.
-/

namespace Typikon

inductive Event where
  | enter (location : Location) (head : Node.Head)
  | exit (location : Location) (head : Node.Head)
deriving DecidableEq

mutual

def Node.events : Node → List Event
  | .atom loc a => [.enter loc (.atom a), .exit loc (.atom a)]
  | .group loc g children =>
    .enter loc (.group g) :: (Node.eventsOfAll children ++ [.exit loc (.group g)])

def Node.eventsOfAll : List Node → List Event
  | [] => []
  | node :: nodes => node.events ++ Node.eventsOfAll nodes

end

end Typikon
