import Layering.Graph.Table

/-!
# Tables in the order of arrival

A graph table that lists nodes and edges in the order in which they were put in. An edge whose
weight changes keeps its place.
-/

namespace Layering

namespace Arrival

variable {α κ β : Type} [DecidableEq α] [DecidableEq κ]

/-- Puts an element at the end, unless it is there. -/
def add (l : List α) (a : α) : List α := if a ∈ l then l else l ++ [a]

/-- Puts an entry at the end, or in the place of the one with its key. -/
def put (l : List (κ × β)) (k : κ) (v : β) : List (κ × β) :=
  if k ∈ l.map Prod.fst then l.map fun p => if p.1 = k then (k, v) else p else l ++ [(k, v)]

variable {l : List α} {a x : α} {m : List (κ × β)} {k y : κ} {v u : β}

theorem mem_add : x ∈ add l a ↔ x = a ∨ x ∈ l := by
  rw [add]
  split
  · next h => exact ⟨.inr, fun hx => hx.elim (fun hxa => hxa ▸ h) id⟩
  · rw [List.mem_append, List.mem_singleton, or_comm]

theorem nodup_add (h : l.Nodup) : (add l a).Nodup := by
  rw [add]
  split
  · exact h
  · next ha =>
    rw [List.nodup_append]
    refine ⟨h, by simp, fun b hb c hc hbc => ha ?_⟩
    rwa [← List.mem_singleton.1 hc, ← hbc]

theorem map_fst_put : (put m k v).map Prod.fst = add (m.map Prod.fst) k := by
  rw [put, add]
  split
  · rw [List.map_map]
    refine List.map_congr_left fun p _ => ?_
    by_cases hp : p.1 = k <;> simp [hp]
  · simp

theorem mem_put : (y, u) ∈ put m k v ↔ y = k ∧ u = v ∨ y ≠ k ∧ (y, u) ∈ m := by
  rw [put]
  split
  · next hk =>
    rw [List.mem_map]
    constructor
    · rintro ⟨p, hp, he⟩
      split at he
      · cases he
        exact .inl ⟨rfl, rfl⟩
      · next hne =>
        subst he
        exact .inr ⟨hne, hp⟩
    · rintro (⟨rfl, rfl⟩ | ⟨hy, hp⟩)
      · obtain ⟨p, hp, rfl⟩ := List.mem_map.1 hk
        exact ⟨p, hp, if_pos rfl⟩
      · exact ⟨_, hp, if_neg hy⟩
  · next hk =>
    have hne : (y, u) ∈ m → y ≠ k := fun hp hy => hk (List.mem_map.2 ⟨_, hp, hy⟩)
    rw [List.mem_append, List.mem_singleton, Prod.mk.injEq, or_comm]
    exact or_congr_right ⟨fun hp => ⟨hne hp, hp⟩, And.right⟩

/-- Where keys are not repeated, an entry is found by its key. -/
theorem lookup_eq_some_iff (h : (m.map Prod.fst).Nodup) : m.lookup y = some u ↔ (y, u) ∈ m := by
  induction m with
  | nil => simp
  | cons p m ih =>
    obtain ⟨hp, hm⟩ := List.nodup_cons.1 h
    rw [OrdMap.lookup_cons_ite, List.mem_cons, Prod.ext_iff]
    by_cases hy : y = p.1
    · subst hy
      have hnot : (p.1, u) ∉ m := fun hu => hp (List.mem_map.2 ⟨_, hu, rfl⟩)
      simp [hnot, eq_comm]
    · simp [hy, ih hm]

end Arrival

/-! ## Tables -/

/-- The nodes and the weighted edges, in the order in which they were put in. -/
structure Arrivals where
  nodes : List GroupId
  edges : List (Edge × UInt32)
  nodup_nodes : nodes.Nodup
  nodup_edges : (edges.map Prod.fst).Nodup

namespace Arrivals

open Arrival

/-- Nothing has been put in. -/
def empty : Arrivals := ⟨[], [], .nil, .nil⟩

/-- Puts in a node. -/
def addNode (t : Arrivals) (n : GroupId) : Arrivals where
  nodes := add t.nodes n
  edges := t.edges
  nodup_nodes := nodup_add t.nodup_nodes
  nodup_edges := t.nodup_edges

/-- Changes the weight of an edge. -/
def setWeight (t : Arrivals) (e : Edge) (w : UInt32) : Arrivals where
  nodes := t.nodes
  edges := put t.edges e w
  nodup_nodes := t.nodup_nodes
  nodup_edges := by
    rw [map_fst_put]
    exact nodup_add t.nodup_edges

/-- Puts in the endpoints of an edge and the edge. -/
def putEdge (t : Arrivals) (e : Edge) (w : UInt32) : Arrivals :=
  ((t.addNode e.source).addNode e.target).setWeight e w

/-- The weight of an edge. -/
def weight? (t : Arrivals) (e : Edge) : Option UInt32 := t.edges.lookup e

/-- The targets of the edges from a node. -/
def neighbors (t : Arrivals) (n : GroupId) : List GroupId :=
  (t.edges.filter (·.1.source = n)).map (·.1.target)

theorem weight?_eq_some_iff {t : Arrivals} {e : Edge} {w : UInt32} :
    t.weight? e = some w ↔ (e, w) ∈ t.edges := lookup_eq_some_iff t.nodup_edges

theorem weight?_setWeight (t : Arrivals) (e : Edge) (w : UInt32) (d : Edge) :
    (t.setWeight e w).weight? d = if d = e then some w else t.weight? d := by
  refine Option.ext fun v => ?_
  rw [weight?_eq_some_iff, setWeight, mem_put, ← weight?_eq_some_iff]
  by_cases hd : d = e <;> simp [hd, eq_comm]

theorem mem_neighbors {t : Arrivals} {n x : GroupId} :
    x ∈ t.neighbors n ↔ (t.weight? ⟨n, x⟩).isSome := by
  rw [neighbors, List.mem_map, Option.isSome_iff_exists]
  constructor
  · rintro ⟨⟨e, w⟩, he, rfl⟩
    obtain ⟨hmem, hn⟩ := List.mem_filter.1 he
    obtain rfl := of_decide_eq_true hn
    exact ⟨w, weight?_eq_some_iff.2 hmem⟩
  · rintro ⟨w, hw⟩
    exact ⟨(⟨n, x⟩, w), List.mem_filter.2 ⟨weight?_eq_some_iff.1 hw, decide_eq_true rfl⟩, rfl⟩

theorem nodup_neighbors (t : Arrivals) (n : GroupId) : (t.neighbors n).Nodup := by
  rw [neighbors, List.Nodup, List.pairwise_map]
  refine ((List.pairwise_map.1 t.nodup_edges).filter _).imp_of_mem fun {p q} hp hq hne htarget => ?_
  have hp := of_decide_eq_true (List.mem_filter.1 hp).2
  have hq := of_decide_eq_true (List.mem_filter.1 hq).2
  have hsource : p.1.source = q.1.source := hp.trans hq.symm
  exact hne (show Edge.mk p.1.source p.1.target = ⟨q.1.source, q.1.target⟩ by
    rw [hsource, htarget])

end Arrivals

/-- The tables that list nodes and edges as they were put in. -/
def GraphTable.byArrival : GraphTable where
  Carrier := Arrivals
  empty := .empty
  addNode := .addNode
  putEdge := .putEdge
  setWeight := .setWeight
  weight? := Arrivals.weight?
  nodes := Arrivals.nodes
  neighbors := Arrivals.neighbors
  edges := Arrivals.edges
  nodeCount t := t.nodes.length
  edgeCount t := t.edges.length
  not_mem_nodes_empty _ := List.not_mem_nil
  mem_nodes_addNode := Arrival.mem_add
  mem_nodes_putEdge := Arrival.mem_add.trans (or_congr_right Arrival.mem_add)
  mem_nodes_setWeight _ := .rfl
  weight?_empty _ := rfl
  weight?_addNode _ _ _ := rfl
  weight?_putEdge t e w := ((t.addNode e.source).addNode e.target).weight?_setWeight e w
  weight?_setWeight {t e} w d _ := t.weight?_setWeight e w d
  nodup_nodes := Arrivals.nodup_nodes
  nodup_neighbors := Arrivals.nodup_neighbors
  mem_neighbors := Arrivals.mem_neighbors
  nodup_edges := Arrivals.nodup_edges
  mem_edges := Arrivals.weight?_eq_some_iff.symm
  nodeCount_eq _ := rfl
  edgeCount_eq _ := rfl

end Layering
