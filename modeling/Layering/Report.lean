import Layering.Admission
import Layering.Dependency
import Layering.Graph.Cycle

/-!
# Reports

What an analysis has found: the groups, the edges between them before and after
admission, the references that mean no unit, the cycles of the raw graph, and
totals of it all.
-/

namespace Layering

/-- How much was dropped, by reason. -/
structure RejectionCounts where
  unresolvedReferences : Nat
  layerIllegal : Nat
  cycleAvoidance : Nat
  deriving DecidableEq

/-- Totals of a report. -/
structure ReportSummary where
  units : Nat
  groups : Nat
  groupsByLayer : OrdMap Layer Nat
  directDependencies : Nat
  transitiveDependencies : Nat
  rawEdges : Nat
  admittedEdges : Nat
  rejectedEdges : Nat
  rejections : RejectionCounts
  /-- Cycles of the raw graph. -/
  rawCycles : Nat
  circularEdges : Nat
  /-- Cycles of the admitted graph. -/
  residualCycles : Nat
  deriving DecidableEq

/-- The result of an analysis. -/
structure Report where
  summary : ReportSummary
  groups : List Group
  rawEdges : List WeightedEdge
  admittedEdges : List WeightedEdge
  rejectedEdges : List RejectedEdge
  unresolvedReferences : List UnresolvedReference
  /-- The cycles of the raw graph. -/
  cycleReport : CycleReport
  deriving DecidableEq

namespace Report

/-- The first group with an id. -/
def group? (r : Report) (id : GroupId) : Option Group := r.groups.find? (·.id = id)

/-- The first group that holds a unit. -/
def groupOfUnit? (r : Report) (path : String) : Option Group := r.groups.find? (path ∈ ·.units)

end Report

namespace ReportSummary

/-- The totals in one line. -/
def text (s : ReportSummary) : String :=
  let n : Nat → String := toString
  let layers := s.groupsByLayer.entries.map fun e => e.1.name ++ "=" ++ n e.2
  n s.units ++ " units in " ++ n s.groups ++ " groups (" ++ ", ".intercalate layers ++ "); " ++
    n s.directDependencies ++ " direct and " ++ n s.transitiveDependencies ++
    " transitive dependencies; " ++
    n s.rawEdges ++ " raw edges, " ++ n s.admittedEdges ++ " admitted, " ++ n s.rejectedEdges ++
    " rejected (" ++ n s.rejections.layerIllegal ++ " layer-illegal, " ++
    n s.rejections.cycleAvoidance ++ " cycle-avoidance); " ++
    n s.rejections.unresolvedReferences ++ " unresolved references; " ++
    n s.rawCycles ++ " raw cycles over " ++ n s.circularEdges ++ " circular edges"

end ReportSummary

end Layering
