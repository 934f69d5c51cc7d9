import Layering.Proofs.Graph.Cycle
import Mathlib.Data.List.Basic

/-!
# Cycles and orders of the nodes

The components that are reported are disjoint and hold the nodes that lie on cycles
(`Graph.exists_component_iff_transGen`), in one component those that reach each other
(`Graph.exists_component_iff_mutual`). Every node of one has a successor in it, so
that there are at least as many circular edges inside as nodes
(`Graph.size_le_length_circularWithin`). There is no component if the nodes can be
ordered along the edges, and only then (`Graph.acyclic_iff_exists_order`).

* `Graph.cycles_exact`: what the report says about a graph.
-/

namespace Layering

open Relation (TransGen)

/-- The circular edges of a report whose ends both lie in a set. -/
def CycleReport.circularWithin (r : CycleReport) (s : OrdSet GroupId) : List Edge :=
  r.circularEdges.toList.filter fun e => e.source ∈ s ∧ e.target ∈ s

namespace Graph

variable {g : Graph} {s : OrdSet GroupId} {c order : List GroupId} {a b : GroupId}

/-! ## Components -/

theorem size_ofList (h : c.Nodup) : (OrdSet.ofList c).size = c.length :=
  ((List.perm_ext_iff_of_nodup (OrdSet.ofList c).nodup_toList h).2
    fun _ => OrdSet.mem_ofList).length_eq

theorem two_le_size (h : s ∈ g.cycles.components) : 2 ≤ s.size := by
  obtain ⟨c, hc, hlen, rfl⟩ := mem_components_cycles.1 h
  rwa [size_ofList (nodup_of_mem_components hc)]

theorem mem_nodes_of_mem_components_cycles (h : s ∈ g.cycles.components) (ha : a ∈ s) :
    a ∈ g.nodes := by
  obtain ⟨c, hc, -, rfl⟩ := mem_components_cycles.1 h
  exact mem_flatten_components.1 (List.mem_flatten.2 ⟨c, hc, OrdSet.mem_ofList.1 ha⟩)

/-- Two nodes stand in one component if each is reached from the other. -/
theorem exists_component_iff_mutual (hne : a ≠ b) :
    (∃ s ∈ g.cycles.components, a ∈ s ∧ b ∈ s) ↔ g.Mutual a b := by
  constructor
  · rintro ⟨s, hs, ha, hb⟩
    exact mutual_of_mem_components_cycles hs ha hb
  · intro h
    obtain hab | ⟨x, hadj, -⟩ := Relation.ReflTransGen.cases_head h.1
    · exact absurd hab hne
    · obtain ⟨s, hs, hmem⟩ := exists_mem_components_cycles hne hadj.mem_nodes.1 h
      exact ⟨s, hs, hmem a ⟨.refl, .refl⟩, hmem b h⟩

/-- No two components share a node. -/
theorem disjoint_components_cycles (g : Graph) :
    g.cycles.components.Pairwise fun s t => ∀ a ∈ s, a ∉ t := by
  have hdisj := (List.nodup_flatten.1 (nodup_flatten_components g)).2
  rw [components_cycles, List.pairwise_map]
  refine (hdisj.filter _).imp fun {c d} h a hc hd => ?_
  exact h (OrdSet.mem_ofList.1 hc) (OrdSet.mem_ofList.1 hd)

/-- Every node of a component has a successor in it. -/
theorem exists_adj_of_mem_components_cycles (h : s ∈ g.cycles.components) (ha : a ∈ s) :
    ∃ b ∈ s, g.Adj a b := by
  obtain ⟨b, hb, hne⟩ : ∃ b ∈ s.toList, b ≠ a := by
    by_contra! hall
    have hsub : s.toList.Subperm [a] :=
      s.nodup_toList.subperm fun x hx => List.mem_singleton.2 (hall x hx)
    exact absurd hsub.length_le (Nat.not_le.2 (two_le_size h))
  have hm : g.Mutual a b := mutual_of_mem_components_cycles h ha hb
  obtain hab | ⟨x, hax, hxb⟩ := hm.1.cases_head
  · exact absurd hab.symm hne
  · -- The first step towards `b` stays among the nodes that reach `a` and are reached from it.
    obtain ⟨t, ht, hall⟩ := exists_mem_components_cycles hne.symm hax.mem_nodes.1 hm
    have hst : s = t := eq_of_mem_components_cycles h ht ha (hall a ⟨.refl, .refl⟩)
    exact ⟨x, hst ▸ hall x ⟨.single hax, hxb.trans hm.2⟩, hax⟩

/-- The nodes of the components are those that lie on cycles. -/
theorem exists_component_iff_transGen :
    (∃ s ∈ g.cycles.components, a ∈ s) ↔ TransGen g.Adj a a := by
  constructor
  · rintro ⟨s, hs, ha⟩
    obtain ⟨b, hb, hab⟩ := exists_adj_of_mem_components_cycles hs ha
    exact .head' hab (mutual_of_mem_components_cycles hs hb ha).1
  · intro h
    obtain ⟨b, hab, hba⟩ := Relation.TransGen.head'_iff.1 h
    obtain ⟨s, hs, hall⟩ := exists_mem_components_cycles hab.ne hab.mem_nodes.1 ⟨.single hab, hba⟩
    exact ⟨s, hs, hall a ⟨.refl, .refl⟩⟩

/-- A component has at least as many circular edges as nodes. -/
theorem size_le_length_circularWithin (h : s ∈ g.cycles.components) :
    s.size ≤ (g.cycles.circularWithin s).length := by
  have hsource : ∀ a ∈ s.toList, a ∈ (g.cycles.circularWithin s).map Edge.source := fun a ha => by
    obtain ⟨b, hb, hab⟩ := exists_adj_of_mem_components_cycles h ha
    have hcircular : ⟨a, b⟩ ∈ g.cycles.circularEdges :=
      mem_circularEdges.2 ⟨hab, (mutual_of_mem_components_cycles h ha hb).2⟩
    exact List.mem_map.2 ⟨⟨a, b⟩, List.mem_filter.2 ⟨hcircular, decide_eq_true ⟨ha, hb⟩⟩, rfl⟩
  exact (s.nodup_toList.subperm hsource).length_le.trans_eq (List.length_map _)

/-! ## Orders of the nodes -/

theorem idxOf_lt_idxOf (h : order.Pairwise fun a b => ¬ g.Adj b a) (ha : a ∈ order)
    (hb : b ∈ order) (hab : g.Adj a b) : order.idxOf a < order.idxOf b := by
  by_contra hle
  have hne : order.idxOf b ≠ order.idxOf a := fun e => hab.ne ((List.idxOf_inj hb).1 e).symm
  have hlt : order.idxOf b < order.idxOf a := lt_of_le_of_ne (not_lt.1 hle) hne
  have hno := List.pairwise_iff_getElem.1 h _ _ (List.idxOf_lt_length_iff.2 hb)
    (List.idxOf_lt_length_iff.2 ha) hlt
  rw [List.getElem_idxOf, List.getElem_idxOf] at hno
  exact hno hab

/-- Without a directed cycle the components, last first, are an order of the nodes in which
no edge leads backwards. -/
theorem Acyclic.pairwise_reverse_components (h : g.Acyclic) :
    g.components.flatten.reverse.Pairwise fun a b => ¬ g.Adj b a := by
  rw [List.pairwise_reverse, List.pairwise_flatten]
  refine ⟨fun c hc => ?_, (finished_components g).ordered⟩
  match c, h.length_component_le hc with
  | [], _ => exact .nil
  | [_], _ => exact List.pairwise_singleton ..
  | _ :: _ :: _, hlen => simp at hlen

/-- There is no directed cycle if the nodes can be ordered so that each edge leads from an
earlier node to a later one. -/
theorem acyclic_iff_exists_order : g.Acyclic ↔
    ∃ order : List GroupId, order.Nodup ∧ (∀ a, a ∈ order ↔ a ∈ g.nodes) ∧
      ∀ a b, g.Adj a b → order.idxOf a < order.idxOf b := by
  constructor
  · intro h
    have hmem : ∀ a, a ∈ g.components.flatten.reverse ↔ a ∈ g.nodes := fun a =>
      List.mem_reverse.trans mem_flatten_components
    refine ⟨_, List.nodup_reverse.2 (nodup_flatten_components g), hmem, fun a b hab => ?_⟩
    exact idxOf_lt_idxOf h.pairwise_reverse_components ((hmem a).2 hab.mem_nodes.1)
      ((hmem b).2 hab.mem_nodes.2) hab
  · rintro ⟨order, -, -, hlt⟩ a ha
    have hall : ∀ b, TransGen g.Adj a b → order.idxOf a < order.idxOf b := fun b hb => by
      induction hb with
      | single h => exact hlt _ _ h
      | tail _ h ih => exact ih.trans (hlt _ _ h)
    exact lt_irrefl _ (hall a ha)

theorem isAcyclic_iff : g.cycles.isAcyclic ↔ g.Acyclic := by
  rw [CycleReport.isAcyclic, List.isEmpty_iff, components_cycles_eq_nil_iff]

/-- The report on the cycles of a graph says what lies on them: its components are disjoint,
have two nodes at least, as many circular edges inside as nodes, and hold just the nodes on
cycles, two of them in one component if they are reached from each other; an edge is circular
if it lies on a cycle; and it finds nothing if the nodes can be ordered along the edges. -/
theorem cycles_exact (g : Graph) :
    (g.cycles.components.Pairwise fun s t => ∀ a ∈ s, a ∉ t) ∧
    (∀ s ∈ g.cycles.components, 2 ≤ s.size ∧ (∀ a ∈ s, a ∈ g.nodes) ∧
      s.size ≤ (g.cycles.circularWithin s).length) ∧
    (∀ a, (∃ s ∈ g.cycles.components, a ∈ s) ↔ TransGen g.Adj a a) ∧
    (∀ a b, a ≠ b → ((∃ s ∈ g.cycles.components, a ∈ s ∧ b ∈ s) ↔
      g.Reach a b ∧ g.Reach b a)) ∧
    (∀ e, e ∈ g.cycles.circularEdges ↔
      g.Adj e.source e.target ∧ g.Reach e.target e.source) ∧
    (g.cycles.isAcyclic ↔ ∃ order : List GroupId, order.Nodup ∧ (∀ a, a ∈ order ↔ a ∈ g.nodes) ∧
      ∀ a b, g.Adj a b → order.idxOf a < order.idxOf b) := by
  refine ⟨disjoint_components_cycles g, fun s hs => ?_, fun a => exists_component_iff_transGen,
    fun a b => exists_component_iff_mutual, fun e => mem_circularEdges, ?_⟩
  · exact ⟨two_le_size hs, fun a => mem_nodes_of_mem_components_cycles hs,
      size_le_length_circularWithin hs⟩
  · rw [isAcyclic_iff, acyclic_iff_exists_order]

end Graph

end Layering
