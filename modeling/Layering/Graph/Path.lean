import Layering.Graph.Basic

/-!
# Shortest paths

Breadth-first search from a node. The queue holds trails: walks from the start
to a discovered node, last node first, in the order in which the nodes were
discovered. A node is discovered once, so there are no more trails than nodes.
-/

namespace Layering.Graph

/-- One walk from the start: the node it has reached and the nodes before it,
last first. -/
structure Trail where
  last : GroupId
  before : List GroupId

/-- The nodes of a trail from the start on. -/
def Trail.path (t : Trail) : List GroupId := (t.last :: t.before).reverse

/-- The successors of a trail's last node that are not yet discovered. -/
def fresh (g : Graph) (seen : List GroupId) (t : Trail) : List GroupId :=
  (g.successors t.last).filter (· ∉ seen)

/-- Takes up to `fuel` trails from the queue; the first that ends at `goal` is
the answer. -/
def search (g : Graph) (goal : GroupId) :
    (fuel : Nat) → (queue : List Trail) → (seen : List GroupId) → Option (List GroupId)
  | 0, _, _ => none
  | _, [], _ => none
  | fuel + 1, t :: queue, seen =>
    if t.last = goal then some t.path
    else
      let next := g.fresh seen t
      search g goal fuel (queue ++ next.map fun n => ⟨n, t.last :: t.before⟩) (next ++ seen)

/-- A shortest path between two nodes, both included, if there is one. -/
def path? (g : Graph) (start goal : GroupId) : Option (List GroupId) :=
  if start ∈ g.nodes ∧ goal ∈ g.nodes then g.search goal g.nodeCount [⟨start, []⟩] [start] else none

/-- Whether a node can be reached from another along edges. -/
def reachable (g : Graph) (start goal : GroupId) : Bool := (g.path? start goal).isSome

end Layering.Graph
