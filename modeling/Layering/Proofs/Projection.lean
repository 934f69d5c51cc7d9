import Layering.Dependency
import Layering.Proofs.Grouping
import Mathlib.Algebra.Order.BigOperators.Group.List
import Mathlib.Algebra.Order.Group.Nat
import Mathlib.Data.List.Perm.Subperm

/-!
# Projections onto groups

The nodes of the graph of a corpus are the ids of its groups
(`UnitDependencies.mem_nodes_project`): no edge leads out of them. An edge weighs the
number of dependencies behind it (`UnitDependencies.weight?_project`), which are no
fewer where units have more of them (`UnitDependencies.count_groupEdges_mono`). The graph
does not depend on the order in which its edges are added
(`Graph.foldl_addEdge_of_perm`).
-/

namespace Layering

theorem Graph.mem_nodes_foldl_addEdge {es : List Edge} {g : Graph} {x : GroupId} :
    x ∈ (es.foldl (·.addEdge · 1) g).nodes ↔
      x ∈ g.nodes ∨ ∃ e ∈ es, e.source ≠ e.target ∧ (x = e.source ∨ x = e.target) := by
  induction es generalizing g with
  | nil => simp
  | cons e es ih =>
    rw [List.foldl_cons, ih, List.exists_mem_cons_iff]
    by_cases hl : e.source = e.target
    · rw [addEdge_loop _ _ hl]
      simp [hl]
    · rw [mem_nodes_addEdge hl, and_iff_right hl, ← or_assoc,
        ← or_assoc (a := x ∈ g.nodes)]
      refine or_congr_left ?_
      simp [or_comm]

/-- The other edges keep their weights. -/
theorem Graph.weight?_addEdge_of_ne {g : Graph} {d e : Edge} {w : Nat} (h : d ≠ e) :
    (g.addEdge d w).weight? e = g.weight? e := by
  by_cases hd : d.source = d.target
  · rw [addEdge_loop _ _ hd]
  · rw [weight?_addEdge _ hd, if_neg (Ne.symm h)]

/-- An edge weighs as much more as it has been added. -/
theorem Graph.weight?_foldl_addEdge {e : Edge} (hl : e.source ≠ e.target) (es : List Edge)
    (g : Graph) : (es.foldl (·.addEdge · 1) g).weight? e =
      if e ∈ es then some ((g.weight? e).getD 0 + es.count e) else g.weight? e := by
  induction es generalizing g with
  | nil => rfl
  | cons d es ih =>
    rw [List.foldl_cons, ih]
    by_cases hde : d = e
    · subst hde
      rw [weight?_addEdge _ hl, if_pos rfl, Option.getD_some, List.count_cons_self]
      by_cases hmem : d ∈ es
      · simp [hmem, Nat.add_assoc, Nat.add_comm 1]
      · simp [hmem, List.count_eq_zero_of_not_mem hmem]
    · rw [weight?_addEdge_of_ne hde, List.count_cons_of_ne hde]
      simp only [List.mem_cons, Ne.symm hde, false_or]

theorem Graph.weight?_loop (g : Graph) {e : Edge} (hl : e.source = e.target) :
    g.weight? e = none := by
  cases h : g.weight? e with
  | none => rfl
  | some w => exact absurd hl (g.closed e (OrdMap.mem_keys.2 (Option.isSome_of_eq_some h))).1

/-- The order in which two edges are added does not matter. -/
theorem Graph.addEdge_right_comm (g : Graph) (a b : Edge) (v w : Nat) :
    (g.addEdge a v).addEdge b w = (g.addEdge b w).addEdge a v := by
  by_cases ha : a.source = a.target
  · rw [addEdge_loop _ _ ha, addEdge_loop _ _ ha]
  · by_cases hb : b.source = b.target
    · rw [addEdge_loop _ _ hb, addEdge_loop _ _ hb]
    · refine ext_weight? (fun x => ?_) fun e => ?_
      · simp only [mem_nodes_addEdge ha, mem_nodes_addEdge hb]
        tauto
      · simp only [weight?_addEdge _ ha, weight?_addEdge _ hb]
        by_cases hab : a = b
        · subst hab
          by_cases he : e = a
          · simp [he, Nat.add_right_comm]
          · simp [he]
        · by_cases he : e = a
          · simp [he, hab]
          · simp [he, Ne.symm hab]

/-- A graph of edges does not depend on the order in which they are added. -/
theorem Graph.foldl_addEdge_of_perm {es fs : List Edge} (h : es.Perm fs) (g : Graph) :
    es.foldl (·.addEdge · 1) g = fs.foldl (·.addEdge · 1) g :=
  haveI : RightCommutative fun (g : Graph) e => g.addEdge e 1 :=
    ⟨fun g a b => g.addEdge_right_comm a b 1 1⟩
  h.foldl_eq g

namespace UnitDependencies

variable {d d' : UnitDependencies} {corpus : Corpus} {classifier : Classifier}
  {config : ResolutionConfig}

theorem ne_nil_of_mem_groupEdges {g : Grouping} {e : Edge} (h : e ∈ d.groupEdges corpus g) :
    corpus.units ≠ [] := by
  intro hn
  simp [groupEdges, Corpus.indexed, hn] at h

/-- An edge weighs the number of dependencies behind it. -/
theorem weight?_project {g : Grouping} {e : Edge} (hl : e.source ≠ e.target) :
    (d.project corpus g).weight? e = if e ∈ d.groupEdges corpus g then
      some ((d.groupEdges corpus g).count e) else none := by
  rw [project, Graph.weight?_foldl_addEdge hl, Graph.weight?_ofNodes, Option.getD_none,
    Nat.zero_add]

theorem weight?_project_eq_some_iff {g : Grouping} {e : Edge} {w : Nat} :
    (d.project corpus g).weight? e = some w ↔
      e.source ≠ e.target ∧ 0 < w ∧ (d.groupEdges corpus g).count e = w := by
  by_cases hl : e.source = e.target
  · rw [Graph.weight?_loop _ hl]
    simp [hl]
  · rw [weight?_project hl, and_iff_right hl]
    by_cases hmem : e ∈ d.groupEdges corpus g
    · rw [if_pos hmem, Option.some_inj]
      refine ⟨fun h => ⟨?_, h⟩, And.right⟩
      rw [← h]
      exact List.count_pos_iff.2 hmem
    · rw [if_neg hmem, List.count_eq_zero_of_not_mem hmem]
      simp only [reduceCtorEq, false_iff, not_and]
      omega

/-- If each unit has its dependencies and perhaps more, no fewer of them are behind an
edge. -/
theorem count_groupEdges_mono (corpus : Corpus) (h : ∀ u, (d.all u).Subperm (d'.all u))
    (g : Grouping) (e : Edge) :
    (d.groupEdges corpus g).count e ≤ (d'.groupEdges corpus g).count e := by
  rw [groupEdges, groupEdges, List.count_flatMap, List.count_flatMap]
  refine List.sum_le_sum fun u _ => ?_
  rw [Function.comp_apply, Function.comp_apply, List.count_eq_countP, List.count_eq_countP,
    List.countP_map, List.countP_map]
  exact (h u.1).countP_le _

/-- The nodes of the graph are the groups. -/
theorem mem_nodes_project {x : GroupId} :
    x ∈ (d.project corpus (.ofCorpus corpus classifier config)).nodes ↔
      x ∈ (Grouping.ofCorpus corpus classifier config).groups.map Group.id := by
  rw [project, Graph.mem_nodes_foldl_addEdge, Graph.mem_nodes_ofNodes]
  refine or_iff_left_of_imp ?_
  rintro ⟨e, he, -, hx⟩
  have hne := ne_nil_of_mem_groupEdges he
  obtain ⟨u, -, he⟩ := List.mem_flatMap.1 he
  obtain ⟨t, -, rfl⟩ := List.mem_map.1 he
  rcases hx with rfl | rfl <;> exact Grouping.groupOf_mem hne _

end UnitDependencies

end Layering
