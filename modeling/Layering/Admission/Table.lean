import Layering.Analysis
import Layering.Graph.Table

/-!
# Group graphs that are built in tables

The raw graph of a corpus and the admitted part of it, built in tables step by step. The weights
in tables have 32 bits. A step that would make a weight too large has no result
(`UnitDependencies.projectIn`, `TableAdmission.ofGraph`), or the weight wraps around
(`UnitDependencies.projectWrapped`, `TableAdmission.ofGraphWrapped`).
-/

namespace Layering

variable {T : GraphTable}

namespace GroupGraph

/-- The graph of some nodes without edges. -/
def ofNodes (ns : List GroupId) : GroupGraph T := ns.foldl addNode empty

/-- Adds a row of edges, each with weight 1. -/
def addEdges (g : GroupGraph T) (es : List Edge) : Option (GroupGraph T) :=
  es.foldlM (fun g e => (g.addEdge e 1).map Prod.snd) g

/-- Adds a row of edges, each with weight 1. Weights wrap around. -/
def addEdgesWrapped (g : GroupGraph T) (es : List Edge) : GroupGraph T :=
  es.foldl (·.addWrapped · 1) g

end GroupGraph

/-- The graph of the groups; an edge weighs the number of dependencies behind it. -/
def UnitDependencies.projectIn (T : GraphTable) (d : UnitDependencies) (corpus : Corpus)
    (g : Grouping) : Option (GroupGraph T) :=
  (GroupGraph.ofNodes (g.groups.map Group.id)).addEdges (d.groupEdges corpus g)

/-- The graph of the groups with weights that wrap around. -/
def UnitDependencies.projectWrapped (T : GraphTable) (d : UnitDependencies) (corpus : Corpus)
    (g : Grouping) : GroupGraph T :=
  (GroupGraph.ofNodes (g.groups.map Group.id)).addEdgesWrapped (d.groupEdges corpus g)

/-- The edges admitted to a table, and those rejected. -/
structure TableAdmission (T : GraphTable) where
  admitted : GroupGraph T
  rejected : List RejectedEdge

namespace TableAdmission

/-- An edge of the raw graph with the layers of its groups. -/
structure Candidate where
  edge : Edge
  weight : UInt32
  sourceLayer : Layer
  targetLayer : Layer

/-- The edges from a group to listed groups. -/
def candidatesFrom (raw : GroupGraph T) (groups : List Group) (source : Group) : List Candidate :=
  (raw.successors source.id).filterMap fun t =>
    (Admission.layerOf? groups t).map fun l =>
      ⟨⟨source.id, t⟩, (raw.weight? ⟨source.id, t⟩).getD 1, source.layer, l⟩

/-- The edges between listed groups in the order in which they are offered. -/
def candidates (raw : GroupGraph T) (groups : List Group) (policy : LayerPolicy) :
    List Candidate :=
  policy.effectiveOrder.flatMap fun layer =>
    (groups.filter (·.layer = layer)).flatMap (candidatesFrom raw groups)

/-- Admits or rejects an edge. -/
def offer (policy : LayerPolicy) (a : TableAdmission T) (c : Candidate) :
    Option (TableAdmission T) :=
  if policy.isLegal c.sourceLayer c.targetLayer then
    match a.admitted.path? c.edge.target c.edge.source with
    | some path =>
      some { a with rejected := a.rejected ++ [⟨c.edge, c.weight.toNat, .cycleAvoidance path⟩] }
    | none => (a.admitted.addEdge c.edge c.weight).map fun r => { a with admitted := r.2 }
  else
    some { a with
      rejected := a.rejected ++
        [⟨c.edge, c.weight.toNat, .layerIllegal c.sourceLayer c.targetLayer⟩] }

/-- Offers a row of edges. -/
def offers (policy : LayerPolicy) (a : TableAdmission T) (cs : List Candidate) :
    Option (TableAdmission T) := cs.foldlM (offer policy) a

/-- Nothing offered yet. -/
def start (groups : List Group) : TableAdmission T := ⟨.ofNodes (groups.map Group.id), []⟩

/-- Admits the edges of a graph. -/
def ofGraph (raw : GroupGraph T) (groups : List Group) (policy : LayerPolicy) :
    Option (TableAdmission T) := offers policy (start groups) (candidates raw groups policy)

/-- Admits or rejects an edge. Weights wrap around. -/
def offerWrapped (policy : LayerPolicy) (a : TableAdmission T) (c : Candidate) :
    TableAdmission T :=
  if policy.isLegal c.sourceLayer c.targetLayer then
    match a.admitted.path? c.edge.target c.edge.source with
    | some path =>
      { a with rejected := a.rejected ++ [⟨c.edge, c.weight.toNat, .cycleAvoidance path⟩] }
    | none => { a with admitted := a.admitted.addWrapped c.edge c.weight }
  else
    { a with
      rejected := a.rejected ++
        [⟨c.edge, c.weight.toNat, .layerIllegal c.sourceLayer c.targetLayer⟩] }

/-- Offers a row of edges. Weights wrap around. -/
def offersWrapped (policy : LayerPolicy) (a : TableAdmission T) (cs : List Candidate) :
    TableAdmission T := cs.foldl (offerWrapped policy) a

/-- Admits the edges of a graph. Weights wrap around. -/
def ofGraphWrapped (raw : GroupGraph T) (groups : List Group) (policy : LayerPolicy) :
    TableAdmission T := offersWrapped policy (start groups) (candidates raw groups policy)

end TableAdmission

namespace Analysis

/-- The graphs of the analysis of a corpus under compiled rules. -/
def buildIn (T : GraphTable) (corpus : Corpus) (config : AnalysisConfig)
    (classifier : Classifier) : Option (GroupGraph T × TableAdmission T) := do
  let grouping := Grouping.ofCorpus corpus classifier config.resolution
  let dependencies := UnitDependencies.ofCorpus (.ofCorpus corpus config.resolution)
    config.resolution config.transitiveDepthLimit.toNat
  let raw ← dependencies.projectIn T corpus grouping
  let admission ← TableAdmission.ofGraph raw grouping.groups config.layers
  return (raw, admission)

/-- The graphs of the analysis of a corpus. -/
def runIn (T : GraphTable) (corpus : Corpus) (config : AnalysisConfig) :
    Except ConfigError (Option (GroupGraph T × TableAdmission T)) := do
  config.validate
  let classifier ← config.rules.compile
  return buildIn T corpus config classifier

end Analysis

end Layering
