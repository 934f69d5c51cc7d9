import Layering.Admission
import Layering.Graph.Cycle
import Layering.Ordered.Sort

/-!
# Group graphs in tables

A group graph can be kept in a graph table, of which nothing is known but what its operations
do. It lists nodes and edges in an order of its own, and the weights of its edges have 32 bits.
The lists are sorted when they are read (`GroupGraph.nodes`, `GroupGraph.successors`,
`GroupGraph.weightedEdges`), so what is read is a graph (`GroupGraph.graph`).
-/

namespace Layering

/-- What is needed of tables of simple directed graphs: their operations and what these do. -/
structure GraphTable where
  Carrier : Type
  empty : Carrier
  addNode : Carrier → GroupId → Carrier
  /-- Puts in an edge and its endpoints. -/
  putEdge : Carrier → Edge → UInt32 → Carrier
  /-- Changes the weight of an edge that is there. -/
  setWeight : Carrier → Edge → UInt32 → Carrier
  weight? : Carrier → Edge → Option UInt32
  nodes : Carrier → List GroupId
  neighbors : Carrier → GroupId → List GroupId
  edges : Carrier → List (Edge × UInt32)
  nodeCount : Carrier → Nat
  edgeCount : Carrier → Nat
  not_mem_nodes_empty (x : GroupId) : x ∉ nodes empty
  mem_nodes_addNode {t : Carrier} {n x : GroupId} : x ∈ nodes (addNode t n) ↔ x = n ∨ x ∈ nodes t
  mem_nodes_putEdge {t : Carrier} {e : Edge} {w : UInt32} {x : GroupId} :
    x ∈ nodes (putEdge t e w) ↔ x = e.target ∨ x = e.source ∨ x ∈ nodes t
  mem_nodes_setWeight {t : Carrier} {e : Edge} {w : UInt32} {x : GroupId} :
    (weight? t e).isSome → (x ∈ nodes (setWeight t e w) ↔ x ∈ nodes t)
  weight?_empty (d : Edge) : weight? empty d = none
  weight?_addNode (t : Carrier) (n : GroupId) (d : Edge) : weight? (addNode t n) d = weight? t d
  weight?_putEdge (t : Carrier) (e : Edge) (w : UInt32) (d : Edge) :
    weight? (putEdge t e w) d = if d = e then some w else weight? t d
  weight?_setWeight {t : Carrier} {e : Edge} (w : UInt32) (d : Edge) :
    (weight? t e).isSome → weight? (setWeight t e w) d = if d = e then some w else weight? t d
  /-- Each node is listed once. -/
  nodup_nodes (t : Carrier) : (nodes t).Nodup
  /-- The targets of the edges from a node are listed once each. -/
  nodup_neighbors (t : Carrier) (n : GroupId) : (neighbors t n).Nodup
  mem_neighbors {t : Carrier} {n x : GroupId} : x ∈ neighbors t n ↔ (weight? t ⟨n, x⟩).isSome
  /-- Each edge is listed once, with its weight. -/
  nodup_edges (t : Carrier) : ((edges t).map Prod.fst).Nodup
  mem_edges {t : Carrier} {e : Edge} {w : UInt32} : (e, w) ∈ edges t ↔ weight? t e = some w
  nodeCount_eq (t : Carrier) : nodeCount t = (nodes t).length
  edgeCount_eq (t : Carrier) : edgeCount t = (edges t).length

/-- A group graph in a table: there are no loops, and no edges without their endpoints. -/
structure GroupGraph (T : GraphTable) where
  table : T.Carrier
  closed : ∀ e, (T.weight? table e).isSome →
    e.source ≠ e.target ∧ e.source ∈ T.nodes table ∧ e.target ∈ T.nodes table

namespace GroupGraph

variable {T : GraphTable}

/-! ## Operations -/

/-- The graph without nodes. -/
def empty : GroupGraph T := ⟨T.empty, fun e h => by simp [T.weight?_empty] at h⟩

/-- The graph with a node added. -/
def addNode (g : GroupGraph T) (n : GroupId) : GroupGraph T where
  table := T.addNode g.table n
  closed e h := by
    rw [T.weight?_addNode] at h
    have hclosed := g.closed e h
    simp [T.mem_nodes_addNode, hclosed]

/-- The graph with an edge put in. -/
def putEdge (g : GroupGraph T) (e : Edge) (w : UInt32) (hl : e.source ≠ e.target) :
    GroupGraph T where
  table := T.putEdge g.table e w
  closed d h := by
    rw [T.weight?_putEdge] at h
    simp only [T.mem_nodes_putEdge]
    split at h
    · next hd =>
      subst hd
      simp [hl]
    · have hclosed := g.closed d h
      simp [hclosed]

/-- The graph with the weight of one of its edges changed. -/
def setWeight (g : GroupGraph T) (e : Edge) (w : UInt32) (he : (T.weight? g.table e).isSome) :
    GroupGraph T where
  table := T.setWeight g.table e w
  closed d h := by
    rw [T.weight?_setWeight w d he] at h
    simp only [T.mem_nodes_setWeight he]
    split at h
    · next hd => exact g.closed d (hd ▸ he)
    · exact g.closed d h

/-- Adds to the weight of an edge, which is put in if it is missing. Loops are dropped, and the
answer is whether the edge is none. There is no answer if the weight would have more than 32
bits. -/
def addEdge (g : GroupGraph T) (e : Edge) (w : UInt32) : Option (Bool × GroupGraph T) :=
  if hl : e.source = e.target then some (false, g)
  else
    match he : T.weight? g.table e with
    | some v =>
      if v.toNat + w.toNat < UInt32.size then
        some (true, g.setWeight e (v + w) (Option.isSome_of_eq_some he))
      else none
    | none => some (true, g.putEdge e w hl)

/-- Adds to the weight of an edge like `addEdge`, but a weight of more than 32 bits wraps around. -/
def addWrapped (g : GroupGraph T) (e : Edge) (w : UInt32) : GroupGraph T :=
  if hl : e.source = e.target then g
  else
    match he : T.weight? g.table e with
    | some v => g.setWeight e (v + w) (Option.isSome_of_eq_some he)
    | none => g.putEdge e w hl

/-! ## What is read -/

/-- The weight of an edge. -/
def weight? (g : GroupGraph T) (e : Edge) : Option UInt32 := T.weight? g.table e

/-- The number of nodes. -/
def nodeCount (g : GroupGraph T) : Nat := T.nodeCount g.table

/-- The number of edges. -/
def edgeCount (g : GroupGraph T) : Nat := T.edgeCount g.table

/-- The nodes in ascending order. -/
def nodes (g : GroupGraph T) : List GroupId := sortOn id (T.nodes g.table)

/-- The targets of the edges from a node, in ascending order. -/
def successors (g : GroupGraph T) (n : GroupId) : List GroupId := sortOn id (T.neighbors g.table n)

/-- The edges. -/
def edges (g : GroupGraph T) : OrdSet Edge := .ofList ((T.edges g.table).map Prod.fst)

/-- The edges with their weights, in ascending order. -/
def weightedEdges (g : GroupGraph T) : List WeightedEdge :=
  sortOn WeightedEdge.edge ((T.edges g.table).map fun p => ⟨p.1, p.2.toNat⟩)

/-! ## The graph -/

theorem ascending_nodes (g : GroupGraph T) : g.nodes.Pairwise (· < ·) := by
  have hnodup : ((T.nodes g.table).map id).Nodup := by simpa using T.nodup_nodes g.table
  simpa [nodes] using ascending_sortOn hnodup

theorem ascending_successors (g : GroupGraph T) (n : GroupId) :
    (g.successors n).Pairwise (· < ·) := by
  have hnodup : ((T.neighbors g.table n).map id).Nodup := by
    simpa using T.nodup_neighbors g.table n
  simpa [successors] using ascending_sortOn hnodup

theorem ascending_weightedEdges (g : GroupGraph T) :
    (g.weightedEdges.map WeightedEdge.edge).Pairwise (· < ·) := by
  refine ascending_sortOn ?_
  rw [List.map_map]
  exact T.nodup_edges g.table

@[simp] theorem mem_nodes {g : GroupGraph T} {n : GroupId} : n ∈ g.nodes ↔ n ∈ T.nodes g.table :=
  mem_sortOn

theorem mem_successors {g : GroupGraph T} {n x : GroupId} :
    x ∈ g.successors n ↔ (g.weight? ⟨n, x⟩).isSome := mem_sortOn.trans T.mem_neighbors

theorem mem_edges {g : GroupGraph T} {e : Edge} : e ∈ g.edges ↔ (g.weight? e).isSome := by
  rw [edges, OrdSet.mem_ofList, List.mem_map, weight?, Option.isSome_iff_exists]
  constructor
  · rintro ⟨⟨e, w⟩, he, rfl⟩
    exact ⟨w, T.mem_edges.1 he⟩
  · rintro ⟨w, hw⟩
    exact ⟨(e, w), T.mem_edges.2 hw, rfl⟩

theorem mem_weightedEdges {g : GroupGraph T} {e : WeightedEdge} :
    e ∈ g.weightedEdges ↔ ∃ w, g.weight? e.edge = some w ∧ w.toNat = e.weight := by
  rw [weightedEdges, mem_sortOn, List.mem_map]
  constructor
  · rintro ⟨⟨e, w⟩, he, rfl⟩
    exact ⟨w, T.mem_edges.1 he, rfl⟩
  · rintro ⟨w, hw, hweight⟩
    exact ⟨(e.edge, w), T.mem_edges.2 hw, by rw [hweight]⟩

/-- The graph of the lists that are read. -/
def graph (g : GroupGraph T) : Graph where
  nodes := ⟨g.nodes, g.ascending_nodes⟩
  weights := ⟨g.weightedEdges.map fun e => (e.edge, e.weight), by
    rw [List.map_map]
    exact g.ascending_weightedEdges⟩
  closed e h := by
    obtain ⟨_, hp, rfl⟩ := List.mem_map.1 h
    obtain ⟨e, he, rfl⟩ := List.mem_map.1 hp
    obtain ⟨w, hw, -⟩ := mem_weightedEdges.1 he
    obtain ⟨hloop, hsource, htarget⟩ := g.closed e.edge (Option.isSome_of_eq_some hw)
    exact ⟨hloop, mem_nodes.2 hsource, mem_nodes.2 htarget⟩

/-! Searches look at the nodes and their successors only, in the order in which these are read. -/

/-- A shortest path between two nodes, both included, if there is one. -/
def path? (g : GroupGraph T) (start goal : GroupId) : Option (List GroupId) :=
  g.graph.path? start goal

/-- The strongly connected components. -/
def components (g : GroupGraph T) : List (List GroupId) := g.graph.components

/-- The cyclic part of the graph. -/
def cycles (g : GroupGraph T) : CycleReport := g.graph.cycles

end GroupGraph

end Layering
