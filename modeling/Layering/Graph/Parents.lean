import Layering.Graph.Path

/-!
# Parents

The search for a path with less in its queue: not trails but nodes, and beside it a map
that gives each discovered node its parent, the node that it was discovered from. The path
is found by walking back from the goal, parent by parent. What could go wrong on the way is
an outcome of its own: a node that has no parent, and a search or a walk that takes more
turns than there are nodes.
-/

namespace Layering.Graph

/-- What could go wrong in a search that keeps parents. -/
inductive ParentFault
  | noParent (node : GroupId)
  | endless
  deriving DecidableEq

/-- The discovered nodes with their parents, and those of them that have not been taken from
the queue. -/
structure Discovery where
  queue : List GroupId
  parents : OrdMap GroupId GroupId

namespace Discovery

/-- Only the start is discovered; it is its own parent. -/
def initial (start : GroupId) : Discovery := ⟨[start], OrdMap.empty.insert start start⟩

/-- Discovers a node from a parent, unless it has one. -/
def reach (parent : GroupId) (d : Discovery) (n : GroupId) : Discovery :=
  if (d.parents.get? n).isSome then d else ⟨d.queue ++ [n], d.parents.insert n parent⟩

end Discovery

/-- Takes up to `fuel` nodes from the queue. The answer is the parents that are known when
the goal is taken, or nothing if the queue becomes empty. -/
def discover (g : Graph) (goal : GroupId) :
    (fuel : Nat) → Discovery → Except ParentFault (Option (OrdMap GroupId GroupId))
  | _, ⟨[], _⟩ => .ok none
  | 0, _ => .error .endless
  | fuel + 1, ⟨n :: queue, parents⟩ =>
    if n = goal then .ok (some parents)
    else g.discover goal fuel ((g.successors n).foldl (Discovery.reach n) ⟨queue, parents⟩)

/-- Walks back from a node to the start; `after` is the path behind the node. -/
def walkBack (parents : OrdMap GroupId GroupId) (start : GroupId) (fuel : Nat) (n : GroupId)
    (after : List GroupId) : Except ParentFault (List GroupId) :=
  if n = start then .ok (n :: after)
  else
    match fuel with
    | 0 => .error .endless
    | fuel + 1 =>
      match parents.get? n with
      | none => .error (.noParent n)
      | some parent => walkBack parents start fuel parent (n :: after)

/-- The path that parents lead back along, if the goal has been found. -/
def retrace (g : Graph) (start goal : GroupId) :
    Option (OrdMap GroupId GroupId) → Except ParentFault (Option (List GroupId))
  | some parents => (walkBack parents start g.nodeCount goal []).map some
  | none => .ok none

/-- A path between two nodes, both included, if there is one. -/
def pathByParents (g : Graph) (start goal : GroupId) : Except ParentFault (Option (List GroupId)) :=
  if start ∈ g.nodes ∧ goal ∈ g.nodes then
    (g.discover goal g.nodeCount (.initial start)).bind (g.retrace start goal)
  else .ok none

end Layering.Graph
