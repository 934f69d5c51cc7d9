import Layering.Graph.Arrival
import Layering.Proofs.Projection

/-!
# What a group graph holds after calls

What calls do to a graph with weights of any size is what they add (`GraphCall.weight?_foldl_apply`,
`GraphCall.mem_nodes_foldl_apply`), in whatever order they come (`GraphCall.foldl_apply_of_perm`).
A call on a graph in a table does the same to the graph that is read from the table, unless a
weight becomes too large (`GraphCall.graph_perform`, `GraphCall.exists_perform`), and so do all
calls (`GraphCall.graph_replay`, `GraphCall.exists_replay_iff`).

* `GroupGraph.replay_exact`: a group graph after calls, in whatever table and order.
-/

namespace Layering

/-- The weights of a graph have at most 32 bits. -/
def Graph.Fits (k : Graph) : Prop := ∀ e, (k.weight? e).getD 0 < UInt32.size

theorem Graph.Fits.of_addEdge {k : Graph} {e : Edge} {w : Nat} (h : (k.addEdge e w).Fits) :
    k.Fits := by
  intro d
  have hd := h d
  by_cases hl : e.source = e.target
  · rwa [addEdge_loop _ _ hl] at hd
  · rw [weight?_addEdge _ hl] at hd
    split at hd
    · next hde =>
      rw [hde]
      exact Nat.lt_of_le_of_lt (Nat.le_add_right _ _) hd
    · exact hd

/-! ## Calls -/

/-- The calls that change a group graph. -/
inductive GraphCall
  | addNode (n : GroupId)
  | addEdge (e : Edge) (w : UInt32)
  deriving DecidableEq

variable {T U : GraphTable} {g g' : GroupGraph T} {k : Graph} {c : GraphCall}
  {calls calls' : List GraphCall} {e : Edge} {n : GroupId} {w : UInt32} {b : Bool}

namespace GraphCall

/-- A call on a graph in a table. -/
def perform (g : GroupGraph T) : GraphCall → Option (GroupGraph T)
  | addNode n => some (g.addNode n)
  | addEdge e w => (g.addEdge e w).map Prod.snd

/-- The graph in a table after calls, the first of them on the graph without nodes. -/
def replay (T : GraphTable) (calls : List GraphCall) : Option (GroupGraph T) :=
  calls.foldlM perform .empty

/-- A call on a graph with weights of any size. -/
def apply (k : Graph) : GraphCall → Graph
  | addNode n => k.addNode n
  | addEdge e w => k.addEdge e w.toNat

/-- A call puts in a node, by itself or as an endpoint of an edge. -/
def Brings (n : GroupId) : GraphCall → Prop
  | addNode m => n = m
  | addEdge e _ => e.source ≠ e.target ∧ (n = e.source ∨ n = e.target)

/-- What a call adds to the weight of an edge. -/
def weightOn (e : Edge) : GraphCall → Nat
  | addNode _ => 0
  | addEdge d w => if d = e then w.toNat else 0

/-- What calls add to the weight of an edge. -/
def totalOn (e : Edge) (calls : List GraphCall) : Nat := (calls.map (weightOn e)).sum

/-! ## Weights of any size -/

theorem isSome_weight?_apply (hl : e.source ≠ e.target) (k : Graph) (c : GraphCall) :
    ((c.apply k).weight? e).isSome ↔ (k.weight? e).isSome ∨ ∃ w, c = .addEdge e w := by
  cases c with
  | addNode n => simp [apply]
  | addEdge d w =>
    rw [apply]
    by_cases hde : d = e
    · subst hde
      simp [Graph.weight?_addEdge _ hl]
    · simp [Graph.weight?_addEdge_of_ne hde, hde]

theorem getD_weight?_apply (hl : e.source ≠ e.target) (k : Graph) (c : GraphCall) :
    ((c.apply k).weight? e).getD 0 = (k.weight? e).getD 0 + c.weightOn e := by
  cases c with
  | addNode n => rfl
  | addEdge d w =>
    rw [apply, weightOn]
    by_cases hde : d = e
    · subst hde
      rw [Graph.weight?_addEdge _ hl, if_pos rfl, if_pos rfl, Option.getD_some]
    · rw [Graph.weight?_addEdge_of_ne hde, if_neg hde, Nat.add_zero]

/-- There is an edge if it was there or a call names it. -/
theorem isSome_weight?_foldl_apply (hl : e.source ≠ e.target) (calls : List GraphCall)
    (k : Graph) : ((calls.foldl apply k).weight? e).isSome ↔
      (k.weight? e).isSome ∨ ∃ w, .addEdge e w ∈ calls := by
  induction calls generalizing k with
  | nil => simp
  | cons c calls ih =>
    rw [List.foldl_cons, ih, isSome_weight?_apply hl, or_assoc, ← exists_or]
    simp only [List.mem_cons, eq_comm]

/-- An edge weighs as much more as the calls that name it add. -/
theorem getD_weight?_foldl_apply (hl : e.source ≠ e.target) (calls : List GraphCall)
    (k : Graph) : ((calls.foldl apply k).weight? e).getD 0 =
      (k.weight? e).getD 0 + totalOn e calls := by
  induction calls generalizing k with
  | nil => rfl
  | cons c calls ih =>
    have htotal : totalOn e (c :: calls) = c.weightOn e + totalOn e calls := List.sum_cons
    rw [List.foldl_cons, ih, getD_weight?_apply hl, htotal, Nat.add_assoc]

/-- What an edge weighs after calls, which put it in if it is missing. -/
theorem weight?_foldl_apply {v : Nat} (hl : e.source ≠ e.target) (calls : List GraphCall)
    (k : Graph) : (calls.foldl apply k).weight? e = some v ↔
      ((k.weight? e).isSome ∨ ∃ w, .addEdge e w ∈ calls) ∧
        (k.weight? e).getD 0 + totalOn e calls = v := by
  rw [← isSome_weight?_foldl_apply hl, ← getD_weight?_foldl_apply hl]
  cases (calls.foldl apply k).weight? e <;> simp

theorem mem_nodes_apply : n ∈ (c.apply k).nodes ↔ n ∈ k.nodes ∨ c.Brings n := by
  cases c with
  | addNode m => rw [apply, Graph.mem_nodes_addNode, Brings, or_comm]
  | addEdge d w =>
    rw [apply, Brings]
    by_cases hd : d.source = d.target
    · simp [hd]
    · rw [Graph.mem_nodes_addEdge hd, and_iff_right hd]
      tauto

/-- The nodes are those that were there and those that calls put in. -/
theorem mem_nodes_foldl_apply : n ∈ (calls.foldl apply k).nodes ↔
    n ∈ k.nodes ∨ ∃ c ∈ calls, c.Brings n := by
  induction calls generalizing k with
  | nil => simp
  | cons c calls ih => rw [List.foldl_cons, ih, mem_nodes_apply, List.exists_mem_cons_iff, or_assoc]

/-- What a graph holds after calls does not depend on their order. -/
theorem foldl_apply_of_perm (h : calls.Perm calls') (k : Graph) :
    calls.foldl apply k = calls'.foldl apply k := by
  refine Graph.ext_weight? (fun n => ?_) fun e => ?_
  · simp only [mem_nodes_foldl_apply, h.mem_iff]
  · by_cases hl : e.source = e.target
    · rw [Graph.weight?_loop _ hl, Graph.weight?_loop _ hl]
    · have htotal : totalOn e calls = totalOn e calls' := (h.map _).sum_eq
      refine Option.ext fun v => ?_
      simp only [weight?_foldl_apply hl, h.mem_iff, htotal]

end GraphCall

/-! ## The graph in a table -/

namespace GroupGraph

@[simp] theorem mem_nodes_graph : n ∈ g.graph.nodes ↔ n ∈ T.nodes g.table := mem_nodes

/-- The graph has the weights of the table. -/
theorem weight?_graph (g : GroupGraph T) (e : Edge) :
    g.graph.weight? e = (g.weight? e).map UInt32.toNat := by
  refine Option.ext fun v => ?_
  rw [Graph.weight?, ← OrdMap.mem_entries_iff, Option.map_eq_some_iff]
  refine Iff.trans ?_ (mem_weightedEdges (e := ⟨e, v⟩))
  constructor
  · intro h
    obtain ⟨d, hd, hde⟩ := List.mem_map.1 h
    cases hde
    exact hd
  · exact fun h => List.mem_map.2 ⟨_, h, rfl⟩

theorem weight?_eq_some_iff : g.weight? e = some w ↔
    e ∈ g.edges ∧ (g.graph.weight? e).getD 0 = w.toNat := by
  rw [mem_edges, weight?_graph]
  cases g.weight? e <;> simp [UInt32.toNat_inj]

theorem edges_graph (g : GroupGraph T) : g.graph.edges = g.edges :=
  OrdSet.ext_mem fun e => by
    rw [Graph.mem_edges, mem_edges, weight?_graph, Option.isSome_map]

theorem successors_graph (g : GroupGraph T) (n : GroupId) :
    g.graph.successors n = g.successors n :=
  OrdSet.eq_of_ascending (g.graph.ascending_successors n) (g.ascending_successors n) fun x => by
    rw [Graph.mem_successors, mem_successors, Graph.Adj, edges_graph, mem_edges]

theorem weightedEdges_graph (g : GroupGraph T) : g.graph.weightedEdges = g.weightedEdges := by
  rw [Graph.weightedEdges, graph, List.map_map]
  exact List.map_id _

theorem nodeCount_graph (g : GroupGraph T) : g.graph.nodeCount = g.nodeCount :=
  (perm_sortOn id _).length_eq.trans (T.nodeCount_eq g.table).symm

theorem edgeCount_graph (g : GroupGraph T) : g.graph.edgeCount = g.edgeCount := by
  rw [edgeCount, T.edgeCount_eq, Graph.edgeCount, OrdMap.size, graph, List.length_map,
    weightedEdges, (perm_sortOn _ _).length_eq, List.length_map]

theorem fits_graph (g : GroupGraph T) : g.graph.Fits := fun e => by
  rw [weight?_graph]
  cases g.weight? e with
  | none => decide
  | some w => exact w.toNat_lt

/-! ## One call -/

theorem graph_empty : (empty : GroupGraph T).graph = .empty :=
  Graph.ext_weight? (fun n => by simp [empty, Graph.empty, T.not_mem_nodes_empty]) fun e => by
    rw [weight?_graph, weight?, empty, T.weight?_empty]
    rfl

theorem graph_addNode (g : GroupGraph T) (n : GroupId) :
    (g.addNode n).graph = g.graph.addNode n :=
  Graph.ext_weight? (fun x => by simp [addNode, T.mem_nodes_addNode]) fun e => by
    rw [weight?_graph, weight?, addNode, T.weight?_addNode, Graph.weight?_addNode, weight?_graph]
    rfl

theorem graph_putEdge (hl : e.source ≠ e.target) (he : g.weight? e = none) :
    (g.putEdge e w hl).graph = g.graph.addEdge e w.toNat := by
  refine Graph.ext_weight? (fun x => ?_) fun d => ?_
  · simp [Graph.mem_nodes_addEdge hl, putEdge, T.mem_nodes_putEdge]
  · rw [Graph.weight?_addEdge d hl, weight?_graph, weight?_graph, weight?_graph, he, weight?,
      putEdge, T.weight?_putEdge]
    split
    · simp
    · rfl

theorem graph_setWeight {v : UInt32} (hl : e.source ≠ e.target) (hv : g.weight? e = some v)
    (h : v.toNat + w.toNat < UInt32.size) (he : (T.weight? g.table e).isSome) :
    (g.setWeight e (v + w) he).graph = g.graph.addEdge e w.toNat := by
  obtain ⟨-, hsource, htarget⟩ := g.closed e he
  refine Graph.ext_weight? (fun x => ?_) fun d => ?_
  · rw [Graph.mem_nodes_addEdge hl, mem_nodes_graph, mem_nodes_graph, setWeight,
      T.mem_nodes_setWeight he]
    constructor
    · exact fun hx => .inr (.inr hx)
    · rintro (rfl | rfl | hx)
      · exact htarget
      · exact hsource
      · exact hx
  · rw [Graph.weight?_addEdge d hl, weight?_graph, weight?_graph, weight?_graph, hv, weight?,
      setWeight, T.weight?_setWeight _ d he]
    split
    · exact congrArg some ((UInt32.toNat_add v w).trans (Nat.mod_eq_of_lt h))
    · rfl

theorem addEdge_loop (g : GroupGraph T) (w : UInt32) (hl : e.source = e.target) :
    g.addEdge e w = some (false, g) := dif_pos hl

/-- The answer is false for loops only, and comes with the graph in which the edge weighs more. -/
theorem addEdge_eq_some (h : g.addEdge e w = some (b, g')) :
    (b = false ↔ e.source = e.target) ∧ g'.graph = g.graph.addEdge e w.toNat := by
  by_cases hl : e.source = e.target
  · rw [addEdge_loop g w hl] at h
    cases h
    exact ⟨iff_of_true rfl hl, (Graph.addEdge_loop _ _ hl).symm⟩
  · rw [addEdge, dif_neg hl] at h
    split at h
    · next v hv =>
      split at h
      · next hfit =>
        cases h
        exact ⟨iff_of_false nofun hl, graph_setWeight hl hv hfit _⟩
      · cases h
    · next hnone =>
      cases h
      exact ⟨iff_of_false nofun hl, graph_putEdge hl hnone⟩

/-- There is an answer if the weight fits. -/
theorem exists_addEdge (hl : e.source ≠ e.target)
    (h : ((g.graph.addEdge e w.toNat).weight? e).getD 0 < UInt32.size) :
    ∃ r, g.addEdge e w = some r := by
  rw [Graph.weight?_addEdge _ hl, if_pos rfl, Option.getD_some, weight?_graph, weight?] at h
  rw [addEdge, dif_neg hl]
  split
  · next v hv =>
    rw [hv] at h
    exact ⟨_, if_pos h⟩
  · exact ⟨_, rfl⟩

end GroupGraph

namespace GraphCall

/-- A call on a table does what it does to the graph. -/
theorem graph_perform (h : c.perform g = some g') : g'.graph = c.apply g.graph := by
  cases c with
  | addNode n =>
    cases h
    exact g.graph_addNode n
  | addEdge e w =>
    obtain ⟨⟨b, g''⟩, hadd, rfl⟩ := Option.map_eq_some_iff.1 h
    exact (GroupGraph.addEdge_eq_some hadd).2

/-- A call on a table fails only if a weight becomes too large. -/
theorem exists_perform (h : (c.apply g.graph).Fits) : ∃ g', c.perform g = some g' := by
  cases c with
  | addNode n => exact ⟨_, rfl⟩
  | addEdge e w =>
    by_cases hl : e.source = e.target
    · exact ⟨g, by rw [perform, g.addEdge_loop w hl]; rfl⟩
    · obtain ⟨r, hr⟩ := GroupGraph.exists_addEdge hl (h e)
      exact ⟨r.2, by rw [perform, hr]; rfl⟩

/-! ## All calls -/

/-- Weights that fit after calls did so before. -/
theorem fits_of_foldl_apply (h : (calls.foldl apply k).Fits) : k.Fits := by
  intro e
  by_cases hl : e.source = e.target
  · rw [Graph.weight?_loop _ hl]
    decide
  · have hlt := h e
    rw [getD_weight?_foldl_apply hl] at hlt
    exact Nat.lt_of_le_of_lt (Nat.le_add_right ..) hlt

theorem graph_replay (h : calls.foldlM perform g = some g') :
    g'.graph = calls.foldl apply g.graph := by
  induction calls generalizing g with
  | nil =>
    cases h
    rfl
  | cons c calls ih =>
    obtain ⟨g₁, hc, hcalls⟩ := Option.bind_eq_some_iff.1 h
    rw [ih hcalls, graph_perform hc, List.foldl_cons]

theorem exists_replay_iff : (∃ g', calls.foldlM perform g = some g') ↔
    (calls.foldl apply g.graph).Fits := by
  constructor
  · rintro ⟨g', h⟩
    exact graph_replay h ▸ g'.fits_graph
  · intro h
    induction calls generalizing g with
    | nil => exact ⟨g, rfl⟩
    | cons c calls ih =>
      rw [List.foldl_cons] at h
      obtain ⟨g₁, hc⟩ := exists_perform (fits_of_foldl_apply h)
      rw [← graph_perform hc] at h
      obtain ⟨g', hcalls⟩ := ih h
      exact ⟨g', Option.bind_eq_some_iff.2 ⟨g₁, hc, hcalls⟩⟩

end GraphCall

/-! ## Graphs after calls -/

namespace GroupGraph

open GraphCall

/-- What is read from a graph after calls on the graph without nodes: the nodes are those that
the calls put in; an edge is there if it is no loop and a call names it, and weighs what such
calls add. Everything is listed once, in ascending order. -/
structure Holds (g : GroupGraph T) (calls : List GraphCall) : Prop where
  nodes : g.nodes.Pairwise (· < ·) ∧ ∀ n, n ∈ g.nodes ↔ ∃ c ∈ calls, c.Brings n
  weight? : ∀ e w, g.weight? e = some w ↔
    (e.source ≠ e.target ∧ ∃ v, .addEdge e v ∈ calls) ∧ w.toNat = totalOn e calls
  edges : ∀ e, e ∈ g.edges ↔ e.source ≠ e.target ∧ ∃ v, .addEdge e v ∈ calls
  weightedEdges : (g.weightedEdges.map WeightedEdge.edge).Pairwise (· < ·) ∧
    ∀ e, e ∈ g.weightedEdges ↔ ∃ w, g.weight? e.edge = some w ∧ w.toNat = e.weight
  successors : ∀ n, (g.successors n).Pairwise (· < ·) ∧ ∀ x, x ∈ g.successors n ↔ ⟨n, x⟩ ∈ g.edges
  nodeCount : g.nodeCount = g.nodes.length
  edgeCount : g.edgeCount = g.edges.toList.length

/-- The same is read from two graphs, which may be kept in tables of different kinds. -/
structure SameAs (g : GroupGraph T) (h : GroupGraph U) : Prop where
  nodes : g.nodes = h.nodes
  edges : g.edges = h.edges
  weight? : ∀ e, g.weight? e = h.weight? e
  weightedEdges : g.weightedEdges = h.weightedEdges
  successors : ∀ n, g.successors n = h.successors n
  nodeCount : g.nodeCount = h.nodeCount
  edgeCount : g.edgeCount = h.edgeCount
  path? : ∀ a b, g.path? a b = h.path? a b
  components : g.components = h.components
  cycles : g.cycles = h.cycles

/-- What is read depends on the graph only, not on the table. -/
theorem SameAs.of_graph {h : GroupGraph U} (hg : g.graph = h.graph) : g.SameAs h where
  nodes := congrArg (fun k : Graph => k.nodes.toList) hg
  edges := by rw [← edges_graph, hg, edges_graph]
  weight? e := by
    refine Option.map_injective (fun _ _ => UInt32.toNat_inj.1) ?_
    rw [← weight?_graph, hg, weight?_graph]
  weightedEdges := by rw [← weightedEdges_graph, hg, weightedEdges_graph]
  successors n := by rw [← successors_graph, hg, successors_graph]
  nodeCount := by rw [← nodeCount_graph, hg, nodeCount_graph]
  edgeCount := by rw [← edgeCount_graph, hg, edgeCount_graph]
  path? a b := congrArg (fun k : Graph => k.path? a b) hg
  components := congrArg Graph.components hg
  cycles := congrArg Graph.cycles hg

theorem holds_of_graph (hg : g.graph = calls.foldl apply .empty) : g.Holds calls := by
  have hempty : ∀ e, Graph.empty.weight? e = none := fun _ => rfl
  have hedges : ∀ e, e ∈ g.edges ↔ e.source ≠ e.target ∧ ∃ v, .addEdge e v ∈ calls := by
    intro e
    rw [← edges_graph, Graph.mem_edges, hg]
    by_cases hl : e.source = e.target
    · simp [Graph.weight?_loop _ hl, hl]
    · simp [isSome_weight?_foldl_apply hl, hempty, hl]
  refine ⟨⟨g.ascending_nodes, fun n => ?_⟩, fun e w => ?_, hedges,
    ⟨g.ascending_weightedEdges, fun _ => mem_weightedEdges⟩,
    fun n => ⟨g.ascending_successors n, fun x => mem_successors.trans mem_edges.symm⟩, ?_, ?_⟩
  · rw [mem_nodes, ← mem_nodes_graph, hg, mem_nodes_foldl_apply]
    simp [Graph.empty]
  · rw [weight?_eq_some_iff, hedges, hg]
    refine and_congr_right fun h => ?_
    rw [getD_weight?_foldl_apply h.1, hempty, Option.getD_none, Nat.zero_add, eq_comm]
  · rw [← nodeCount_graph]
    rfl
  · rw [← edgeCount_graph, ← edges_graph, Graph.length_edges]

theorem graph_of_replay (h : replay T calls = some g) : g.graph = calls.foldl apply .empty := by
  rw [graph_replay h, graph_empty]

/-- Calls on the graph without nodes can be made if the weights of each edge, loops apart, add up
to less than `UInt32.size`. A call that adds a weight answers false just if the edge is a loop,
and then changes nothing. After all calls the graph holds what they add. What is read is the
graph after the same calls with weights of any size, and the same after the calls in any order,
in a table of any kind. -/
theorem replay_exact (T : GraphTable) (calls : List GraphCall) :
    ((∃ g, replay T calls = some g) ↔
      ∀ e : Edge, e.source ≠ e.target → totalOn e calls < UInt32.size) ∧
    (∀ (g : GroupGraph T) (e : Edge) (w : UInt32),
      (e.source = e.target → g.addEdge e w = some (false, g)) ∧
      ∀ b g', g.addEdge e w = some (b, g') → (b = false ↔ e.source = e.target)) ∧
    ∀ g, replay T calls = some g → g.Holds calls ∧ g.graph = calls.foldl apply .empty ∧
      ∀ (U : GraphTable) (calls' : List GraphCall), calls.Perm calls' →
        ∃ h, replay U calls' = some h ∧ g.SameAs h := by
  refine ⟨?_, fun g e w => ⟨g.addEdge_loop w, fun b g' h => (addEdge_eq_some h).1⟩,
    fun g hg => ⟨holds_of_graph (graph_of_replay hg), graph_of_replay hg, fun U calls' hperm => ?_⟩⟩
  · rw [replay, exists_replay_iff, graph_empty]
    refine forall_congr' fun e => ?_
    by_cases hl : e.source = e.target
    · simp [Graph.weight?_loop _ hl, hl]
    · rw [getD_weight?_foldl_apply hl]
      simp [hl, Graph.empty, Graph.weight?]
  · have hfits : (calls'.foldl apply (empty : GroupGraph U).graph).Fits := by
      rw [graph_empty, ← foldl_apply_of_perm hperm, ← graph_of_replay hg]
      exact g.fits_graph
    obtain ⟨h, hh⟩ := exists_replay_iff.2 hfits
    refine ⟨h, hh, .of_graph ?_⟩
    rw [graph_of_replay hg, graph_of_replay hh, foldl_apply_of_perm hperm]

/-- Calls that name an edge twice, a loop, and an edge back. -/
def sampleCalls : List GraphCall :=
  [.addEdge ⟨2, 1⟩ 3, .addNode 0, .addEdge ⟨5, 5⟩ 9, .addEdge ⟨2, 1⟩ 4, .addEdge ⟨1, 2⟩ 1]

/-- The weights of the edge that is named twice are added up, and the loop brings no node. After
the calls from the last to the first the table lists the nodes in another order, but the same
is read. Twice the weight `2147483648` is too large. -/
theorem replay_exact_sample :
    (∃ g h : GroupGraph .byArrival, replay .byArrival sampleCalls = some g ∧
      replay .byArrival sampleCalls.reverse = some h ∧ g.weight? ⟨2, 1⟩ = some 7 ∧
      g.table.nodes = [2, 1, 0] ∧ h.table.nodes = [1, 2, 0] ∧ g.nodes = h.nodes ∧ 5 ∉ g.nodes ∧
      g.cycles = h.cycles) ∧
    ¬ ∃ g, replay .byArrival [.addEdge ⟨0, 1⟩ 2147483648, .addEdge ⟨0, 1⟩ 2147483648] = some g := by
  refine ⟨?_, fun hex => ?_⟩
  · have hg : replay .byArrival sampleCalls = some _ := rfl
    have hh : replay .byArrival sampleCalls.reverse = some _ := rfl
    obtain ⟨hholds, -, hperm⟩ := (replay_exact .byArrival sampleCalls).2.2 _ hg
    obtain ⟨h', hh', hsame⟩ := hperm .byArrival _ (List.reverse_perm _).symm
    obtain rfl := Option.some.inj (hh.symm.trans hh')
    refine ⟨_, _, hg, hh, rfl, rfl, rfl, hsame.nodes, fun h => ?_, hsame.cycles⟩
    have hbrings := (hholds.nodes.2 5).1 h
    simp [sampleCalls, Brings] at hbrings
  · have hlt := (replay_exact .byArrival _).1.1 hex ⟨0, 1⟩ (by decide)
    revert hlt
    decide

end GroupGraph

end Layering
