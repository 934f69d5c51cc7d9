import Layering.Graph.Component

/-!
# Cycles of a graph

The components with more than one node, and the edges inside them.
-/

namespace Layering

/-- The cyclic part of a graph: the components of two or more groups, and the
edges whose ends lie in one of them. -/
structure CycleReport where
  components : List (OrdSet GroupId)
  circularEdges : OrdSet Edge
  deriving DecidableEq

namespace CycleReport

/-- There is no cycle. -/
def isAcyclic (r : CycleReport) : Bool := r.components.isEmpty

/-- The number of components. -/
def count (r : CycleReport) : Nat := r.components.length

end CycleReport

namespace Graph

/-- The edges inside a set of nodes. -/
def edgesWithin (g : Graph) (s : OrdSet GroupId) : List Edge :=
  s.toList.flatMap fun n => ((g.successors n).filter (· ∈ s)).map (Edge.mk n)

/-- The cyclic part of a graph. -/
def cycles (g : Graph) : CycleReport :=
  let components := (g.components.filter (1 < ·.length)).map OrdSet.ofList
  ⟨components, .ofList (components.flatMap g.edgesWithin)⟩

end Graph

end Layering
