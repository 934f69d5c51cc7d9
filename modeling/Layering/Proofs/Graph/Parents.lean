import Layering.Graph.Parents
import Layering.Proofs.Graph.Search

/-!
# Parents instead of trails

A search that keeps parents goes through the same states as one that keeps trails: its queue
holds the nodes that the trails end at, and each trail can be read back from the parents
(`Graph.Mirrors`). So it finds the same path (`Graph.pathByParents_eq`). In particular it
ends, and it never looks for a parent that is not there.
-/

namespace Layering.Graph

variable {g : Graph} {start goal n parent : GroupId} {done seen l after : List GroupId}
  {queue : List Trail} {t : Trail} {d : Discovery} {parents : OrdMap GroupId GroupId}

/-! ## One turn -/

/-- Discovering a list of nodes puts those without a parent into the queue and gives them
one. -/
theorem foldl_reach (hl : l.Nodup) (d : Discovery) :
    (l.foldl (Discovery.reach parent) d).queue =
        d.queue ++ l.filter (fun n => d.parents.get? n = none) ∧
      ∀ n, (l.foldl (Discovery.reach parent) d).parents.get? n =
        if n ∈ l ∧ d.parents.get? n = none then some parent else d.parents.get? n := by
  induction l generalizing d with
  | nil => simp
  | cons x l ih =>
    obtain ⟨hx, hl⟩ := List.nodup_cons.1 hl
    obtain ⟨hqueue, hparents⟩ := ih hl (d.reach parent x)
    rw [List.foldl_cons, hqueue]
    simp only [hparents]
    cases hget : d.parents.get? x with
    | some y =>
      rw [show d.reach parent x = d from if_pos (by rw [hget]; rfl)]
      refine ⟨by simp [hget], fun n => ?_⟩
      by_cases hn : n = x
      · simp [hn, hget]
      · simp [hn]
    | none =>
      rw [show d.reach parent x = ⟨d.queue ++ [x], d.parents.insert x parent⟩ from
        if_neg (by simp [hget])]
      have hfilter : l.filter (fun n => (d.parents.insert x parent).get? n = none) =
          l.filter (fun n => d.parents.get? n = none) := by
        refine List.filter_congr fun n hn => ?_
        rw [OrdMap.get?_insert, if_neg fun e : n = x => hx (e ▸ hn)]
      rw [List.filter_cons_of_pos (by simpa using hget), hfilter, List.append_assoc]
      refine ⟨rfl, fun n => ?_⟩
      rw [OrdMap.get?_insert]
      by_cases hn : n = x
      · simp [hn, hget]
      · simp [hn]

/-- A discovery in which the trails of a search can be read back. -/
structure Mirrors (queue : List Trail) (seen : List GroupId) (d : Discovery) : Prop where
  queue_eq : d.queue = queue.map Trail.last
  known : ∀ n, (d.parents.get? n).isSome ↔ n ∈ seen
  chain : ∀ t ∈ queue, (t.last :: t.before).IsChain fun n m => d.parents.get? n = some m

namespace Mirrors

theorem initial (start : GroupId) : Mirrors [⟨start, []⟩] [start] (.initial start) where
  queue_eq := rfl
  known n := by
    rw [Discovery.initial, OrdMap.get?_insert, OrdMap.get?_empty, List.mem_singleton]
    by_cases hn : n = start <;> simp [hn]
  chain t ht := by
    rw [List.mem_singleton.1 ht]
    exact .singleton start

/-- Taking a trail, and its last node, from the queues. -/
theorem take (h : Mirrors (t :: queue) seen d) :
    Mirrors (queue ++ (g.fresh seen t).map fun n => ⟨n, t.last :: t.before⟩) (g.fresh seen t ++ seen)
      ((g.successors t.last).foldl (Discovery.reach t.last) ⟨queue.map Trail.last, d.parents⟩) := by
  obtain ⟨hqueue, hparents⟩ :=
    foldl_reach (g.nodup_successors t.last) ⟨queue.map Trail.last, d.parents⟩
  have hfresh : ∀ n, n ∈ g.successors t.last ∧ d.parents.get? n = none ↔ n ∈ g.fresh seen t :=
    fun n => by rw [mem_fresh, mem_successors, ← h.known, Option.not_isSome_iff_eq_none]
  -- A node keeps its parent, so the trails that stand in the queue can still be read back.
  have hold : ∀ {n m}, d.parents.get? n = some m →
      ((g.successors t.last).foldl (Discovery.reach t.last)
        ⟨queue.map Trail.last, d.parents⟩).parents.get? n = some m := fun {n m} hn => by
    rw [hparents, if_neg, hn]
    simp [hn]
  exact {
    queue_eq := by
      rw [hqueue, List.map_append, List.map_map]
      refine congrArg (queue.map Trail.last ++ ·) (Eq.trans ?_ (List.map_id _).symm)
      exact List.filter_congr fun n _ => decide_eq_decide.2 (by
        rw [← h.known, Option.not_isSome_iff_eq_none])
    known := fun n => by
      rw [hparents, List.mem_append, ← hfresh, ← h.known]
      split
      · next hn => exact iff_of_true rfl (.inl hn)
      · next hn => exact (or_iff_right hn).symm
    chain := fun u hu => by
      rcases List.mem_append.1 hu with hu | hu
      · exact (h.chain u (List.mem_cons_of_mem _ hu)).imp fun _ _ => hold
      · obtain ⟨n, hn, rfl⟩ := List.mem_map.1 hu
        refine .cons_cons ?_ ((h.chain t (List.mem_cons_self ..)).imp fun _ _ => hold)
        rw [hparents, if_pos ((hfresh n).2 hn)] }

end Mirrors

/-! ## The way back -/

/-- Parents that form a chain from a node to the start are walked back along. -/
theorem walkBack_of_isChain {fuel : Nat} (hchain : (n :: l).IsChain fun n m => parents.get? n = some m)
    (hlast : (n :: l).getLast? = some start) (hnodup : (n :: l).Nodup) (hf : l.length ≤ fuel) :
    walkBack parents start fuel n after = .ok ((n :: l).reverse ++ after) := by
  induction l generalizing n fuel after with
  | nil =>
    obtain rfl : n = start := by simpa using hlast
    unfold walkBack
    rw [if_pos rfl]
    rfl
  | cons m l ih =>
    have hmem : start ∈ m :: l := List.mem_of_getLast? (by rwa [List.getLast?_cons_cons] at hlast)
    have hne : n ≠ start := fun e => (List.nodup_cons.1 hnodup).1 (e ▸ hmem)
    obtain ⟨hparent, hchain⟩ := List.isChain_cons_cons.1 hchain
    cases fuel with
    | zero => cases hf
    | succ fuel =>
      unfold walkBack
      rw [if_neg hne]
      simp only [hparent]
      rw [ih hchain (by rwa [List.getLast?_cons_cons] at hlast) (List.nodup_cons.1 hnodup).2
        (Nat.le_of_succ_le_succ hf)]
      simp

namespace Searching

/-- The way back from the node that a trail ends at is the trail. -/
theorem retrace_eq (h : Searching g start goal done (t :: queue) seen)
    (hm : Mirrors (t :: queue) seen d) :
    g.retrace start t.last (some d.parents) = .ok (some t.path) := by
  have ht : t ∈ t :: queue := List.mem_cons_self ..
  have hnodup : (t.last :: t.before).Nodup := List.nodup_reverse.1 (h.path_nodup t ht)
  have hlast : (t.last :: t.before).getLast? = some start := by
    rw [← List.head?_reverse]
    exact (h.leads t ht).head
  have hlength : (t.last :: t.before).length ≤ g.nodeCount :=
    (hnodup.subperm fun n hn => h.mem_nodes n (h.path_seen t ht n (List.mem_reverse.2 hn))).length_le
  rw [retrace, walkBack_of_isChain (hm.chain t ht) hlast hnodup (Nat.le_of_succ_le hlength),
    List.append_nil]
  rfl

/-- From corresponding states, both searches find the same path. -/
theorem discover_bind_retrace (h : Searching g start goal done queue seen)
    (hm : Mirrors queue seen d) {fuel : Nat} (hf : g.nodeCount ≤ done.length + fuel) :
    (g.discover goal fuel d).bind (g.retrace start goal) = .ok (g.search goal fuel queue seen) := by
  induction fuel generalizing done queue seen d with
  | zero =>
    obtain rfl := h.queue_eq_nil (by omega)
    obtain ⟨dqueue, parents⟩ := d
    obtain rfl : dqueue = [] := hm.queue_eq
    rfl
  | succ fuel ih =>
    obtain ⟨dqueue, parents⟩ := d
    obtain rfl : dqueue = queue.map Trail.last := hm.queue_eq
    cases queue with
    | nil => rfl
    | cons t queue =>
      rw [List.map_cons, discover, search]
      split
      · next hg =>
        subst hg
        exact h.retrace_eq hm
      · next hg =>
        refine ih (h.take hg) hm.take ?_
        rw [List.length_cons]
        omega

end Searching

/-- A search that keeps parents finds the path that the trails lead along. -/
theorem pathByParents_eq (g : Graph) (a b : GroupId) : g.pathByParents a b = .ok (g.path? a b) := by
  rw [pathByParents, path?]
  split
  · next hmem =>
    exact (Searching.initial hmem.1).discover_bind_retrace (.initial a) (Nat.le_add_left ..)
  · rfl

end Layering.Graph
