import Layering.Graph.Path
import Layering.Grouping

/-!
# Admission

A layered, acyclic part of a graph, built one edge at a time. The sources are
taken layer by layer in the order of the policy, and in each layer in the order
of the groups; the targets of a source are taken by id. An edge against the
layers is rejected, and so is a legal one whose target already reaches its
source along admitted edges.
-/

namespace Layering

/-- Why an edge was rejected. -/
inductive RejectReason
  /-- The layers of the groups forbid it. -/
  | layerIllegal (source target : Layer)
  /-- It would close a cycle with this path from its target to its source. -/
  | cycleAvoidance (path : List GroupId)
  deriving DecidableEq

/-- An edge with its weight. -/
structure WeightedEdge where
  edge : Edge
  weight : Nat
  deriving DecidableEq

/-- An edge that was rejected. -/
structure RejectedEdge where
  edge : Edge
  weight : Nat
  reason : RejectReason
  deriving DecidableEq

namespace RejectedEdge

/-- The edge goes against the layers. -/
def isLayerIllegal (r : RejectedEdge) : Bool :=
  match r.reason with
  | .layerIllegal _ _ => true
  | .cycleAvoidance _ => false

/-- The edge would have closed a cycle. -/
def isCycleAvoidance (r : RejectedEdge) : Bool :=
  match r.reason with
  | .layerIllegal _ _ => false
  | .cycleAvoidance _ => true

end RejectedEdge

/-- The edges of a graph with their weights, in ascending order. -/
def Graph.weightedEdges (g : Graph) : List WeightedEdge :=
  g.weights.entries.map fun e => ⟨e.1, e.2⟩

/-- The edges admitted and rejected. -/
structure Admission where
  admitted : Graph
  rejected : List RejectedEdge

namespace Admission

/-- An edge of the raw graph with the layers of its groups. -/
structure Candidate where
  edge : Edge
  weight : Nat
  sourceLayer : Layer
  targetLayer : Layer

/-- The layer of a group, the last one listed if its id is listed twice. -/
def layerOf? (groups : List Group) (id : GroupId) : Option Layer :=
  (groups.reverse.find? (·.id = id)).map Group.layer

/-- The edges from a group to listed groups. -/
def candidatesFrom (raw : Graph) (groups : List Group) (source : Group) : List Candidate :=
  (raw.successors source.id).filterMap fun t =>
    (layerOf? groups t).map fun l =>
      ⟨⟨source.id, t⟩, (raw.weight? ⟨source.id, t⟩).getD 1, source.layer, l⟩

/-- The edges between listed groups in the order in which they are offered. -/
def candidates (raw : Graph) (groups : List Group) (policy : LayerPolicy) : List Candidate :=
  policy.effectiveOrder.flatMap fun layer =>
    (groups.filter (·.layer = layer)).flatMap (candidatesFrom raw groups)

/-- Admits or rejects an edge. -/
def offer (policy : LayerPolicy) (a : Admission) (c : Candidate) : Admission :=
  if policy.isLegal c.sourceLayer c.targetLayer then
    match a.admitted.path? c.edge.target c.edge.source with
    | some path => { a with rejected := a.rejected ++ [⟨c.edge, c.weight, .cycleAvoidance path⟩] }
    | none => { a with admitted := a.admitted.addEdge c.edge c.weight }
  else
    { a with
      rejected := a.rejected ++ [⟨c.edge, c.weight, .layerIllegal c.sourceLayer c.targetLayer⟩] }

/-- Nothing offered yet. -/
def start (groups : List Group) : Admission := ⟨.ofNodes (groups.map Group.id), []⟩

/-- Admits the edges of a graph. -/
def ofGraph (raw : Graph) (groups : List Group) (policy : LayerPolicy) : Admission :=
  (candidates raw groups policy).foldl (offer policy) (start groups)

/-- The number of edges against the layers. -/
def layerIllegalCount (a : Admission) : Nat := a.rejected.countP RejectedEdge.isLayerIllegal

/-- The number of edges that would have closed a cycle. -/
def cycleAvoidanceCount (a : Admission) : Nat := a.rejected.countP RejectedEdge.isCycleAvoidance

end Admission

end Layering
