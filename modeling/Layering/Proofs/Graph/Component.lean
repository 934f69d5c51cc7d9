import Layering.Proofs.Graph.Finish
import Mathlib.Algebra.BigOperators.Group.Finset.Basic
import Mathlib.Algebra.GroupWithZero.Nat
import Mathlib.Algebra.Order.BigOperators.Group.Finset

/-!
# Components

The search ends: each move lowers its effort, what the pending visits and the
unvisited nodes have left to do (`Visit.effort_move_lt`), which is at first at
most the number of nodes and edges. So it visits every node, and leaves none on
the stack:

* `Graph.mem_flatten_components`, `Graph.nodup_flatten_components`: the
  components are a partition of the nodes;
* `Graph.mutual_iff_exists_component`: two nodes share one if they reach each
  other;
* `Graph.le_of_adj_components`: an edge leads to its own component or an earlier
  one.
-/

namespace Layering.Graph

namespace Visit

variable {g : Graph} {s t : Visit} {n x : GroupId} {f : Frame} {r : List Frame}

/-- The moves that pending visits have left to make. -/
def unlooked (w : List Frame) : Nat := (w.map fun f => f.successors.length - f.cursor + 1).sum

/-- The moves that the visits of nodes without a number will make. -/
def unentered (g : Graph) (m : OrdMap GroupId Nat) : Nat :=
  ∑ n ∈ g.nodes.toList.toFinset with ¬ (m.get? n).isSome, ((g.successors n).length + 1)

/-- The moves that the search can still make from a state. -/
def effort (g : Graph) (s : Visit) : Nat := unlooked s.work + unentered g s.indices

theorem unlooked_cons (f : Frame) (w : List Frame) :
    unlooked (f :: w) = f.successors.length - f.cursor + 1 + unlooked w := List.sum_cons

theorem unentered_insert {m : OrdMap GroupId Nat} (hn : ¬ (m.get? n).isSome) (hg : n ∈ g.nodes)
    (k : Nat) : (g.successors n).length + 1 + unentered g (m.insert n k) = unentered g m := by
  have herase : ({x ∈ g.nodes.toList.toFinset | ¬ ((m.insert n k).get? x).isSome}) =
      ({x ∈ g.nodes.toList.toFinset | ¬ (m.get? x).isSome}).erase n := by
    ext x
    by_cases hx : x = n <;> simp [hx]
  have hmem : n ∈ ({x ∈ g.nodes.toList.toFinset | ¬ (m.get? x).isSome}) := by simp_all
  rw [unentered, unentered, herase, ← Finset.add_sum_erase _ _ hmem]

theorem effort_enter (hn : ¬ s.Visited n) (hg : n ∈ g.nodes) :
    (s.enter g n).effort g = s.effort g := by
  have hu := unentered_insert hn hg s.index
  simp only [effort, enter, unlooked_cons]
  omega

/-- Each move lowers the effort. -/
theorem effort_move_lt (h : Inv g s) (hw : s.work = f :: r) (m : Move g s f r t) :
    t.effort g < s.effort g := by
  have hcursor : ∀ {y}, f.successors[f.cursor]? = some y → f.cursor < f.successors.length :=
    fun hy => (List.getElem?_eq_some_iff.1 hy).1
  simp only [effort, hw, unlooked_cons]
  cases m with
  | @enter y hy hn =>
    have hlt := hcursor hy
    have hadj : g.Adj f.node y := h.adj_of_getElem? (hw ▸ List.mem_cons_self ..) hy
    have hu := unentered_insert hn hadj.mem_nodes.2 s.index
    simp only [enter, unlooked_cons]
    omega
  | lower hy hv hon =>
    have hlt := hcursor hy
    simp only [lower, unlooked_cons]
    omega
  | skip hy hv hon =>
    have hlt := hcursor hy
    simp only [unlooked_cons]
    omega
  | bottom hf hr =>
    simp only [work_close, indices_close, hr]
    omega
  | pass hf hr =>
    simp only [lower, work_close, indices_close, hr]
    omega

theorem Move.visited (m : Move g s f r t) (hn : s.Visited n) : t.Visited n := by
  cases m with
  | enter hy hv => exact (visited_enter (g := g)).2 (.inr hn)
  | lower hy hv hon => exact hn
  | skip hy hv hon => exact hn
  | bottom hf hr => rwa [Visited, indices_close]
  | pass hf hr =>
    rw [Visited, indices_lower, indices_close]
    exact hn

/-! ## Whole searches -/

/-- Between two roots: everything visited is finished. -/
structure Settled (g : Graph) (s : Visit) : Prop extends Inv g s where
  work_eq : s.work = []

/-- Given enough moves, a search settles. -/
theorem settled_run (h : Inv g s) {fuel : Nat} (hf : s.effort g ≤ fuel) :
    Settled g (s.run g fuel) ∧ ∀ n, s.Visited n → (s.run g fuel).Visited n := by
  induction fuel generalizing s with
  | zero =>
    refine ⟨⟨h, ?_⟩, fun n hn => hn⟩
    cases hw : s.work with
    | nil => exact hw
    | cons f r =>
      rw [effort, hw, unlooked_cons] at hf
      omega
  | succ fuel ih =>
    rw [run]
    cases hw : s.work with
    | nil => exact ⟨⟨h, hw⟩, fun n hn => hn⟩
    | cons f r =>
      have m := move_step (g := g) hw
      have hlt := effort_move_lt h hw m
      obtain ⟨hs, hv⟩ := ih (h.move hw m) (by omega)
      exact ⟨hs, fun n hn => hv n (m.visited hn)⟩

theorem sum_successors (g : Graph) :
    ∑ n ∈ g.nodes.toList.toFinset, ((g.successors n).length + 1) = g.nodeCount + g.edgeCount := by
  have hedges : g.edges.toList.toFinset.card =
      ∑ n ∈ g.nodes.toList.toFinset, (g.successors n).length := by
    rw [Finset.card_eq_sum_card_fiberwise (f := Edge.source) (t := g.nodes.toList.toFinset)]
    · refine Finset.sum_congr rfl fun n _ => ?_
      have hf : ({e ∈ g.edges.toList.toFinset | e.source = n}) =
          (g.edges.toList.filter (·.source = n)).toFinset := by
        ext e
        simp
      rw [hf, length_successors, List.toFinset_card_of_nodup (g.edges.nodup_toList.filter _)]
    · intro e he
      have he := (g.closed e (List.mem_toFinset.1 he)).2.1
      exact List.mem_toFinset.2 he
  rw [Finset.sum_add_distrib, ← hedges, List.toFinset_card_of_nodup g.edges.nodup_toList,
    length_edges, ← Finset.card_eq_sum_ones, List.toFinset_card_of_nodup g.nodes.nodup_toList,
    Nat.add_comm]
  rfl

theorem settled_explore (h : Settled g s) (hn : n ∈ g.nodes) :
    Settled g (s.explore g n) ∧ (s.explore g n).Visited n ∧
      ∀ x, s.Visited x → (s.explore g n).Visited x := by
  rw [explore]
  split
  · next hv => exact ⟨h, hv, fun _ hx => hx⟩
  · next hv =>
    have hpath : s.path = [] := by rw [path, h.work_eq, List.map_nil]
    have hinv := h.toInv.enter hv hn (by simp [hpath])
    have heffort : (s.enter g n).effort g ≤ g.nodeCount + g.edgeCount := by
      have hnil : unlooked s.work = 0 := by rw [h.work_eq]; rfl
      rw [effort_enter hv hn, effort, hnil, Nat.zero_add, ← sum_successors]
      exact Finset.sum_le_sum_of_subset (Finset.filter_subset ..)
    obtain ⟨hs, hmono⟩ := settled_run hinv heffort
    exact ⟨hs, hmono n (visited_enter.2 (.inl rfl)), fun x hx => hmono x (visited_enter.2 (.inr hx))⟩

theorem settled_foldl (h : Settled g s) {l : List GroupId} (hl : ∀ n ∈ l, n ∈ g.nodes) :
    Settled g (l.foldl (explore g) s) ∧
      ∀ n, n ∈ l ∨ s.Visited n → (l.foldl (explore g) s).Visited n := by
  induction l generalizing s with
  | nil => exact ⟨h, fun n hn => hn.resolve_left List.not_mem_nil⟩
  | cons m l ih =>
    obtain ⟨hs, hm, hmono⟩ := settled_explore h (hl m (List.mem_cons_self ..))
    obtain ⟨hs', hv⟩ := ih hs fun n hn => hl n (List.mem_cons_of_mem _ hn)
    refine ⟨hs', fun n hn => hv n ?_⟩
    rcases hn with hn | hn
    · rcases List.mem_cons.1 hn with rfl | hn
      · exact .inr hm
      · exact .inl hn
    · exact .inr (hmono n hn)

/-- The whole search visits every node. -/
theorem settled_initial (g : Graph) :
    Settled g (g.nodes.toList.foldl (explore g) .initial) ∧
      ∀ n ∈ g.nodes, (g.nodes.toList.foldl (explore g) .initial).Visited n := by
  obtain ⟨hs, hv⟩ := settled_foldl ⟨.initial g, rfl⟩ (l := g.nodes.toList) fun _ hn => hn
  exact ⟨hs, fun n hn => hv n (.inl hn)⟩

theorem Settled.stack_eq (h : Settled g s) : s.stack = [] := by
  refine List.eq_nil_iff_forall_not_mem.2 fun x hx => ?_
  obtain ⟨p, hp, -⟩ := h.rooted x hx
  rw [path, h.work_eq] at hp
  cases hp

end Visit

variable {g : Graph} {a b : GroupId} {i j : Nat} {c d : List GroupId}

/-! ## The components of a graph -/

theorem finished_components (g : Graph) :
    Visit.Finished g (g.nodes.toList.foldl (Visit.explore g) .initial) :=
  (Visit.settled_initial g).1.toFinished

theorem mem_flatten_components : a ∈ g.components.flatten ↔ a ∈ g.nodes := by
  obtain ⟨hs, hv⟩ := Visit.settled_initial g
  have hvis := hs.visited_iff a
  rw [hs.stack_eq, or_iff_right List.not_mem_nil] at hvis
  exact ⟨fun h => hs.mem_nodes a (hvis.2 h), fun h => hvis.1 (hv a h)⟩

theorem nodup_flatten_components (g : Graph) : g.components.flatten.Nodup := by
  have hn := (Visit.settled_initial g).1.nodup
  rwa [(Visit.settled_initial g).1.stack_eq] at hn

theorem ne_nil_of_mem_components (h : c ∈ g.components) : c ≠ [] :=
  (finished_components g).ne_nil c h

theorem mutual_of_mem_components (h : c ∈ g.components) (ha : a ∈ c) (hb : b ∈ c) :
    g.Mutual a b :=
  ⟨(finished_components g).reach_of_mem c h a ha b hb,
    (finished_components g).reach_of_mem c h b hb a ha⟩

theorem exists_mem_components (h : a ∈ g.nodes) :
    ∃ i : Nat, ∃ c, g.components[i]? = some c ∧ a ∈ c := by
  obtain ⟨c, hc, ha⟩ := List.mem_flatten.1 (mem_flatten_components.2 h)
  obtain ⟨i, hi⟩ := List.mem_iff_getElem?.1 hc
  exact ⟨i, c, hi, ha⟩

/-- An edge leads to its own component or an earlier one. -/
theorem le_of_adj_components (hc : g.components[i]? = some c) (hd : g.components[j]? = some d)
    (ha : a ∈ c) (hb : b ∈ d) (h : g.Adj a b) : j ≤ i := by
  obtain ⟨hi, rfl⟩ := List.getElem?_eq_some_iff.1 hc
  obtain ⟨hj, rfl⟩ := List.getElem?_eq_some_iff.1 hd
  by_contra hlt
  exact List.pairwise_iff_getElem.1 (finished_components g).ordered i j hi hj (by omega) a ha b hb h

/-- A node stands in one component only. -/
theorem eq_of_mem_components (hc : g.components[i]? = some c) (hd : g.components[j]? = some d)
    (ha : a ∈ c) (hb : a ∈ d) : i = j := by
  obtain ⟨hi, rfl⟩ := List.getElem?_eq_some_iff.1 hc
  obtain ⟨hj, rfl⟩ := List.getElem?_eq_some_iff.1 hd
  have hdisj := List.pairwise_iff_getElem.1 (List.nodup_flatten.1 (nodup_flatten_components g)).2
  rcases Nat.lt_trichotomy i j with h | h | h
  · exact absurd hb (hdisj i j hi hj h ha)
  · exact h
  · exact absurd ha (hdisj j i hj hi h hb)

theorem le_of_reach_components (hc : g.components[i]? = some c) (hd : g.components[j]? = some d)
    (ha : a ∈ c) (hb : b ∈ d) (h : g.Reach a b) : j ≤ i := by
  induction h generalizing j d with
  | refl => exact (eq_of_mem_components hc hd ha hb).ge
  | tail _ hxy ih =>
    obtain ⟨k, e, he, hx⟩ := exists_mem_components hxy.mem_nodes.1
    exact (le_of_adj_components he hd hx hb hxy).trans (ih he hx)

/-- Two nodes share a component if they reach each other. -/
theorem mutual_iff_exists_component (ha : a ∈ g.nodes) :
    g.Mutual a b ↔ ∃ c ∈ g.components, a ∈ c ∧ b ∈ c := by
  constructor
  · rintro ⟨hab, hba⟩
    obtain ⟨i, c, hc, ha⟩ := exists_mem_components ha
    obtain ⟨j, d, hd, hb⟩ := exists_mem_components (Reach.mem_nodes hab ‹a ∈ g.nodes›)
    have hij := Nat.le_antisymm (le_of_reach_components hd hc hb ha hba)
      (le_of_reach_components hc hd ha hb hab)
    subst hij
    rw [hc, Option.some_inj] at hd
    exact ⟨c, List.mem_of_getElem? hc, ha, hd ▸ hb⟩
  · rintro ⟨c, hc, ha, hb⟩
    exact mutual_of_mem_components hc ha hb

/-- The components are the classes of nodes that reach each other, and stand in
reverse topological order. -/
theorem components_reverse_topological (g : Graph) :
    (∀ c ∈ g.components, c ≠ []) ∧ g.components.flatten.Nodup ∧
      (∀ a, a ∈ g.nodes ↔ ∃ c ∈ g.components, a ∈ c) ∧
      (∀ a ∈ g.nodes, ∀ b ∈ g.nodes, (∃ c ∈ g.components, a ∈ c ∧ b ∈ c) ↔
        g.Reach a b ∧ g.Reach b a) ∧
      ∀ (i j : Nat) (c d : List GroupId) (a b : GroupId), g.components[i]? = some c →
        g.components[j]? = some d → a ∈ c → b ∈ d → g.Adj a b → i ≠ j → j < i := by
  refine ⟨fun c => ne_nil_of_mem_components, nodup_flatten_components g, fun a => ?_,
    fun a ha b _ => (mutual_iff_exists_component ha).symm, fun i j c d a b hc hd ha hb h hij => ?_⟩
  · rw [← mem_flatten_components, List.mem_flatten]
  · exact lt_of_le_of_ne (le_of_adj_components hc hd ha hb h) hij.symm

end Layering.Graph
