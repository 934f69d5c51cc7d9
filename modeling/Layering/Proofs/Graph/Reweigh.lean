import Layering.Proofs.Collect
import Layering.Proofs.Graph.Search
import Layering.Proofs.Graph.Table

/-!
# Graphs with other weights

Every graph is the one in which all edges weigh 1 with its weights as factors
(`Graph.scale_unweighted`), so graphs with the same nodes and edges differ in factors only
(`Graph.unweighted_congr`).

A graph in a table whose weights wrap around has the exact weights modulo 2³² (`Graph.wrap`), also
after one more edge (`GroupGraph.graph_addWrapped`).
-/

namespace Layering

namespace Graph

variable {g h : Graph} {f : Edge → Nat}

/-! ## Scaled graphs -/

/-- The graph with other weights on its edges. -/
def mapWeights (f : Edge → Nat → Nat) (g : Graph) : Graph where
  nodes := g.nodes
  weights := g.weights.mapEntries f
  closed e he := g.closed e (by rwa [OrdMap.keys_mapEntries] at he)

theorem edges_mapWeights (f : Edge → Nat → Nat) (g : Graph) : (g.mapWeights f).edges = g.edges :=
  OrdMap.keys_mapEntries f g.weights

theorem weight?_mapWeights (f : Edge → Nat → Nat) (g : Graph) (e : Edge) :
    (g.mapWeights f).weight? e = (g.weight? e).map (f e) := OrdMap.get?_mapEntries f g.weights e

/-- The graph with the weight of each edge multiplied by a factor of the edge. -/
def scale (f : Edge → Nat) (g : Graph) : Graph := g.mapWeights fun e w => w * f e

@[simp] theorem nodes_scale (f : Edge → Nat) (g : Graph) : (g.scale f).nodes = g.nodes := rfl

@[simp] theorem edges_scale (f : Edge → Nat) (g : Graph) : (g.scale f).edges = g.edges :=
  edges_mapWeights _ g

@[simp] theorem weight?_scale (f : Edge → Nat) (g : Graph) (e : Edge) :
    (g.scale f).weight? e = (g.weight? e).map (· * f e) := weight?_mapWeights _ g e

theorem scale_ofNodes (f : Edge → Nat) (ns : List GroupId) : (ofNodes ns).scale f = ofNodes ns :=
  ext_weight? (fun _ => Iff.rfl) fun e => by rw [weight?_scale, weight?_ofNodes, Option.map_none]

/-- What is added to a scaled graph is scaled with it. -/
theorem scale_addEdge (f : Edge → Nat) (g : Graph) (e : Edge) (w : Nat) :
    (g.addEdge e w).scale f = (g.scale f).addEdge e (w * f e) := by
  by_cases hl : e.source = e.target
  · rw [addEdge_loop _ _ hl, addEdge_loop _ _ hl]
  · refine ext_weight? (fun x => ?_) fun d => ?_
    · rw [nodes_scale, mem_nodes_addEdge hl, mem_nodes_addEdge hl, nodes_scale]
    · rw [weight?_scale, weight?_addEdge _ hl, weight?_addEdge _ hl, weight?_scale, weight?_scale]
      by_cases hd : d = e
      · subst hd
        rw [if_pos rfl, if_pos rfl]
        cases g.weight? d <;> simp [Nat.add_mul]
      · rw [if_neg hd, if_neg hd]

/-- The graph with weight 1 on every edge. -/
def unweighted (g : Graph) : Graph := g.mapWeights fun _ _ => 1

/-- The weight of an edge, 0 if there is no such edge. -/
def weightOf (g : Graph) (e : Edge) : Nat := (g.weight? e).getD 0

theorem weightOf_scale (f : Edge → Nat) (g : Graph) (e : Edge) :
    (g.scale f).weightOf e = g.weightOf e * f e := by
  rw [weightOf, weight?_scale, weightOf]
  cases g.weight? e <;> simp

theorem weight?_unweighted (g : Graph) (e : Edge) :
    g.unweighted.weight? e = (g.weight? e).map fun _ => 1 := weight?_mapWeights _ g e

/-- A graph is the one with weight 1 on every edge, scaled by its weights. -/
theorem scale_unweighted (g : Graph) : g.unweighted.scale g.weightOf = g := by
  refine ext_weight? (fun _ => Iff.rfl) fun e => ?_
  rw [weight?_scale, weight?_unweighted, weightOf]
  cases g.weight? e <;> simp

theorem isSome_weight?_congr (he : g.edges = h.edges) (e : Edge) :
    (g.weight? e).isSome = (h.weight? e).isSome := by
  rw [Bool.eq_iff_iff, ← mem_edges, ← mem_edges, he]

/-- Graphs with the same nodes and edges differ in weights only. -/
theorem unweighted_congr (hn : g.nodes = h.nodes) (he : g.edges = h.edges) :
    g.unweighted = h.unweighted := by
  have hnodes : g.unweighted.nodes = h.unweighted.nodes := hn
  refine ext_weight? (fun x => by rw [hnodes]) fun e => ?_
  have hsome := isSome_weight?_congr he e
  rw [weight?_unweighted, weight?_unweighted]
  cases hg : g.weight? e <;> cases hh : h.weight? e <;> simp [hg, hh] at hsome ⊢

/-! ## Weights that wrap around -/

/-- The graph with the weights that sums of 32 bits have. -/
def wrap (g : Graph) : Graph := g.mapWeights fun _ w => w % UInt32.size

@[simp] theorem nodes_wrap (g : Graph) : g.wrap.nodes = g.nodes := rfl

@[simp] theorem edges_wrap (g : Graph) : g.wrap.edges = g.edges := edges_mapWeights _ g

@[simp] theorem weight?_wrap (g : Graph) (e : Edge) :
    g.wrap.weight? e = (g.weight? e).map (· % UInt32.size) := weight?_mapWeights _ g e

theorem wrap_ofNodes (ns : List GroupId) : (ofNodes ns).wrap = ofNodes ns :=
  ext_weight? (fun _ => Iff.rfl) fun e => by rw [weight?_wrap, weight?_ofNodes, Option.map_none]

theorem weightOf_wrap (g : Graph) (e : Edge) : g.wrap.weightOf e = g.weightOf e % UInt32.size := by
  rw [weightOf, weight?_wrap, weightOf]
  exact Option.getD_map (· % UInt32.size) 0 _

/-- Searches do not look at weights. -/
theorem path?_wrap (g : Graph) (a b : GroupId) : g.wrap.path? a b = g.path? a b :=
  path?_congr (nodes_wrap g) (edges_wrap g) a b

end Graph

/-! ## Tables whose weights wrap around -/

namespace GroupGraph

variable {T : GraphTable} {g g' : GroupGraph T} {k : Graph} {d e : Edge} {w : UInt32}
  {es : List Edge} {x : GroupId}

theorem weightOf_graph (g : GroupGraph T) (e : Edge) :
    g.graph.weightOf e = ((g.weight? e).getD 0).toNat := by
  rw [Graph.weightOf, weight?_graph]
  exact Option.getD_map UInt32.toNat 0 _

theorem addWrapped_loop (g : GroupGraph T) (w : UInt32) (hl : e.source = e.target) :
    g.addWrapped e w = g := dif_pos hl

theorem mem_nodes_addWrapped (hl : e.source ≠ e.target) :
    x ∈ (g.addWrapped e w).graph.nodes ↔ x = e.target ∨ x = e.source ∨ x ∈ g.graph.nodes := by
  rw [addWrapped, dif_neg hl]
  split
  · next v hv =>
    obtain ⟨-, hsource, htarget⟩ := g.closed e (Option.isSome_of_eq_some hv)
    rw [mem_nodes_graph, mem_nodes_graph, setWeight,
      T.mem_nodes_setWeight (Option.isSome_of_eq_some hv)]
    refine ⟨fun hx => .inr (.inr hx), ?_⟩
    rintro (rfl | rfl | hx)
    · exact htarget
    · exact hsource
    · exact hx
  · rw [mem_nodes_graph, mem_nodes_graph, putEdge, T.mem_nodes_putEdge]

theorem weight?_addWrapped (hl : e.source ≠ e.target) : (g.addWrapped e w).weight? d =
    if d = e then some ((g.weight? e).getD 0 + w) else g.weight? d := by
  rw [addWrapped, dif_neg hl]
  split
  · next v hv =>
    have hv : g.weight? e = some v := hv
    rw [weight?, setWeight, T.weight?_setWeight _ d, hv]
    · rfl
    · exact Option.isSome_of_eq_some hv
  · next hv =>
    have hv : g.weight? e = none := hv
    rw [weight?, putEdge, T.weight?_putEdge, hv, Option.getD_none, UInt32.zero_add]
    rfl

/-- Where weights wrap around, they are the exact ones modulo 2³². -/
theorem graph_addWrapped (h : g.graph = k.wrap) :
    (g.addWrapped e w).graph = (k.addEdge e w.toNat).wrap := by
  by_cases hl : e.source = e.target
  · rw [addWrapped_loop g w hl, Graph.addEdge_loop _ _ hl, h]
  · refine Graph.ext_weight? (fun x => ?_) fun d => ?_
    · rw [mem_nodes_addWrapped hl, h, Graph.nodes_wrap, Graph.nodes_wrap,
        Graph.mem_nodes_addEdge hl]
    · have hweight (d : Edge) : (g.weight? d).map UInt32.toNat =
          (k.weight? d).map (· % UInt32.size) := by
        rw [← weight?_graph, h, Graph.weight?_wrap]
      have hold : ((g.weight? e).getD 0).toNat = (k.weight? e).getD 0 % UInt32.size := by
        rw [← weightOf_graph, h, Graph.weightOf_wrap, Graph.weightOf]
      rw [weight?_graph, weight?_addWrapped hl, Graph.weight?_wrap, Graph.weight?_addEdge _ hl]
      by_cases hd : d = e
      · rw [if_pos hd, if_pos hd, Option.map_some, Option.map_some, UInt32.toNat_add, hold]
        exact congrArg some (Nat.mod_add_mod _ _ _)
      · rw [if_neg hd, if_neg hd, hweight]

/-- Without overflow nothing wraps around. -/
theorem eq_addWrapped {b : Bool} (h : g.addEdge e w = some (b, g')) : g' = g.addWrapped e w := by
  by_cases hl : e.source = e.target
  · rw [addEdge_loop g w hl] at h
    cases h
    rw [addWrapped_loop g w hl]
  · rw [addEdge, dif_neg hl] at h
    rw [addWrapped, dif_neg hl]
    split at h
    · split at h
      · cases h
        rfl
      · cases h
    · cases h
      rfl

end GroupGraph

end Layering
