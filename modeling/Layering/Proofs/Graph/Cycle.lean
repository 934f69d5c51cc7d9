import Layering.Graph.Cycle
import Layering.Proofs.Graph.Component

/-!
# Cycles

The cyclic part of a graph is empty if the graph has no directed cycle
(`Graph.components_cycles_eq_nil_iff`). In general it says which nodes reach each
other:

* `Graph.mem_circularEdges`: an edge is circular if its target reaches its source;
* `Graph.exists_mem_components_cycles`: two different nodes that reach each other
  share a component;
* `Graph.eq_of_mem_components_cycles`: and only one.
-/

namespace Layering.Graph

variable {g : Graph} {c : List GroupId} {a b : GroupId}

theorem components_cycles (g : Graph) :
    g.cycles.components = (g.components.filter (1 < ·.length)).map OrdSet.ofList := rfl

theorem nodup_of_mem_components (h : c ∈ g.components) : c.Nodup :=
  (List.nodup_flatten.1 (nodup_flatten_components g)).1 c h

/-- Without a directed cycle, a component has one node. -/
theorem Acyclic.length_component_le (hg : g.Acyclic) (h : c ∈ g.components) : c.length ≤ 1 := by
  match c, h with
  | [], _ => exact Nat.zero_le _
  | [_], _ => exact Nat.le_refl _
  | a :: b :: l, h =>
    have hmutual : g.Mutual a b := mutual_of_mem_components h (by simp) (by simp)
    have hne : a ≠ b := by
      have hn := (List.nodup_cons.1 (nodup_of_mem_components h)).1
      exact fun e => hn (e ▸ List.mem_cons_self ..)
    exact absurd (hg.eq_of_mutual hmutual) hne

/-- The cyclic part of a graph is empty if there is no directed cycle. -/
theorem components_cycles_eq_nil_iff : g.cycles.components = [] ↔ g.Acyclic := by
  rw [components_cycles, List.map_eq_nil_iff, List.filter_eq_nil_iff]
  constructor
  · intro h a ha
    obtain ⟨b, hab, hba⟩ := Relation.TransGen.head'_iff.1 ha
    obtain ⟨c, hc, ha, hb⟩ := (mutual_iff_exists_component hab.mem_nodes.1).1 ⟨.single hab, hba⟩
    have hlen := h c hc
    match c, ha, hb, hlen with
    | [x], ha, hb, _ => exact hab.ne ((List.mem_singleton.1 ha).trans (List.mem_singleton.1 hb).symm)
    | x :: y :: l, _, _, hlen => simp at hlen
  · intro h c hc
    have := h.length_component_le hc
    rw [decide_eq_true_eq]
    omega

theorem count_cycles_eq_zero_iff : g.cycles.count = 0 ↔ g.Acyclic := by
  rw [CycleReport.count, List.length_eq_zero_iff, components_cycles_eq_nil_iff]

/-! ## Membership -/

theorem mem_components_cycles {s : OrdSet GroupId} : s ∈ g.cycles.components ↔
    ∃ c ∈ g.components, 1 < c.length ∧ OrdSet.ofList c = s := by
  simp only [components_cycles, List.mem_map, List.mem_filter, decide_eq_true_eq, and_assoc]

/-- The nodes of a component reach each other. -/
theorem mutual_of_mem_components_cycles {s : OrdSet GroupId} (h : s ∈ g.cycles.components)
    (ha : a ∈ s) (hb : b ∈ s) : g.Mutual a b := by
  obtain ⟨c, hc, -, rfl⟩ := mem_components_cycles.1 h
  exact mutual_of_mem_components hc (OrdSet.mem_ofList.1 ha) (OrdSet.mem_ofList.1 hb)

theorem component_eq {d : List GroupId} (hc : c ∈ g.components) (hd : d ∈ g.components)
    (ha : a ∈ c) (ha' : a ∈ d) : c = d := by
  obtain ⟨i, hi⟩ := List.mem_iff_getElem?.1 hc
  obtain ⟨j, hj⟩ := List.mem_iff_getElem?.1 hd
  obtain rfl := eq_of_mem_components hi hj ha ha'
  exact Option.some_inj.1 (hi.symm.trans hj)

/-- A node stands in one component at most. -/
theorem eq_of_mem_components_cycles {s t : OrdSet GroupId} (hs : s ∈ g.cycles.components)
    (ht : t ∈ g.cycles.components) (ha : a ∈ s) (ha' : a ∈ t) : s = t := by
  obtain ⟨c, hc, -, rfl⟩ := mem_components_cycles.1 hs
  obtain ⟨d, hd, -, rfl⟩ := mem_components_cycles.1 ht
  rw [component_eq hc hd (OrdSet.mem_ofList.1 ha) (OrdSet.mem_ofList.1 ha')]

/-- All that reach a node and are reached from it stand in one component with it,
if there is any other. -/
theorem exists_mem_components_cycles (hne : a ≠ b) (ha : a ∈ g.nodes) (h : g.Mutual a b) :
    ∃ s ∈ g.cycles.components, ∀ x, g.Mutual a x → x ∈ s := by
  obtain ⟨c, hc, hac, hbc⟩ := (mutual_iff_exists_component ha).1 h
  have hlen : 1 < c.length := by
    match c, hac, hbc with
    | [x], hac, hbc =>
      exact absurd ((List.mem_singleton.1 hac).trans (List.mem_singleton.1 hbc).symm) hne
    | x :: y :: l, _, _ => simp
  refine ⟨_, mem_components_cycles.2 ⟨c, hc, hlen, rfl⟩, fun x hx => OrdSet.mem_ofList.2 ?_⟩
  obtain ⟨d, hd, had, hxd⟩ := (mutual_iff_exists_component ha).1 hx
  rwa [component_eq hc hd hac had]

theorem mem_edgesWithin {s : OrdSet GroupId} {e : Edge} :
    e ∈ g.edgesWithin s ↔ g.Adj e.source e.target ∧ e.source ∈ s ∧ e.target ∈ s := by
  simp only [edgesWithin, List.mem_flatMap, List.mem_map, List.mem_filter, mem_successors,
    OrdSet.mem_toList, decide_eq_true_eq]
  constructor
  · rintro ⟨n, hn, m, ⟨hadj, hm⟩, rfl⟩
    exact ⟨hadj, hn, hm⟩
  · rintro ⟨hadj, hs, ht⟩
    exact ⟨e.source, hs, e.target, ⟨hadj, ht⟩, rfl⟩

/-- An edge is circular if its target reaches its source. -/
theorem mem_circularEdges {e : Edge} : e ∈ g.cycles.circularEdges ↔
    g.Adj e.source e.target ∧ g.Reach e.target e.source := by
  have hmem : e ∈ g.cycles.circularEdges ↔
      ∃ s ∈ g.cycles.components, e ∈ g.edgesWithin s := by
    rw [cycles, OrdSet.mem_ofList, List.mem_flatMap]
  rw [hmem]
  constructor
  · rintro ⟨s, hs, he⟩
    obtain ⟨hadj, hsrc, htgt⟩ := mem_edgesWithin.1 he
    exact ⟨hadj, (mutual_of_mem_components_cycles hs hsrc htgt).2⟩
  · rintro ⟨hadj, hreach⟩
    have hm : g.Mutual e.source e.target := ⟨.single hadj, hreach⟩
    obtain ⟨s, hs, hall⟩ := exists_mem_components_cycles hadj.ne hadj.mem_nodes.1 hm
    exact ⟨s, hs, mem_edgesWithin.2 ⟨hadj, hall _ ⟨.refl, .refl⟩, hall _ hm⟩⟩

end Layering.Graph
