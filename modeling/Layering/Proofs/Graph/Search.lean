import Layering.Graph.Path
import Layering.Proofs.Graph.Reach
import Mathlib.Data.List.Nodup
import Mathlib.Data.List.Perm.Subperm

/-!
# Breadth-first search

A search for a path keeps the discovered nodes apart into those whose trails have
been taken from the queue and those whose trails stand in it
(`Graph.Searching`). It ends with a path or with a set of nodes that no edge
leaves:

* `Graph.leads_of_path?`: a path that is found leads from the start to the goal,
  and visits no node twice;
* `Graph.path?_eq_none_iff`: a path is found if there is one;
* `Graph.path?_congr`: it depends on the nodes and edges only, not on the weights.
-/

namespace Layering

@[simp] theorem Graph.Trail.path_extend (n : GroupId) (t : Graph.Trail) :
    (⟨n, t.last :: t.before⟩ : Graph.Trail).path = t.path ++ [n] := by
  simp [Graph.Trail.path]

theorem Leads.snoc {r : GroupId → GroupId → Prop} {a b c : GroupId} {p : List GroupId}
    (hp : Leads r a b p) (h : r b c) : Leads r a c (p ++ [c]) where
  head := by rw [List.head?_append, hp.head, Option.some_or]
  last := by simp
  chain := hp.chain.append (.singleton c) fun x hx y hy => by
    rw [hp.last, Option.mem_some_iff] at hx
    rw [List.head?_cons, Option.mem_some_iff] at hy
    rwa [← hx, ← hy]

namespace Graph

variable {g h : Graph} {start goal a b : GroupId} {done seen : List GroupId} {queue : List Trail}
  {t : Trail} {p : List GroupId}

theorem mem_fresh {n : GroupId} : n ∈ g.fresh seen t ↔ g.Adj t.last n ∧ n ∉ seen := by
  simp [fresh]

theorem nodup_successors (g : Graph) (n : GroupId) : (g.successors n).Nodup :=
  (g.ascending_successors n).imp fun h => Nat.ne_of_lt h

theorem nodup_fresh (g : Graph) (seen : List GroupId) (t : Trail) : (g.fresh seen t).Nodup :=
  (g.nodup_successors t.last).filter _

/-- A search from `start` that has taken the trails to the nodes `done` from the
queue, and not yet come to `goal`. -/
structure Searching (g : Graph) (start goal : GroupId) (done : List GroupId) (queue : List Trail)
    (seen : List GroupId) : Prop where
  seen_perm : seen.Perm (done ++ queue.map Trail.last)
  nodup : seen.Nodup
  mem_nodes : ∀ n ∈ seen, n ∈ g.nodes
  start_mem : start ∈ seen
  closed : ∀ a ∈ done, ∀ b, g.Adj a b → b ∈ seen
  goal_not_mem : goal ∉ done
  leads : ∀ t ∈ queue, Leads g.Adj start t.last t.path
  path_nodup : ∀ t ∈ queue, t.path.Nodup
  path_seen : ∀ t ∈ queue, ∀ n ∈ t.path, n ∈ seen

namespace Searching

theorem initial (h : start ∈ g.nodes) : Searching g start goal [] [⟨start, []⟩] [start] where
  seen_perm := .refl _
  nodup := List.nodup_singleton start
  mem_nodes n hn := List.mem_singleton.1 hn ▸ h
  start_mem := List.mem_singleton_self start
  closed _ ha := absurd ha List.not_mem_nil
  goal_not_mem := List.not_mem_nil
  leads t ht := by
    rw [List.mem_singleton.1 ht]
    exact ⟨rfl, rfl, .singleton start⟩
  path_nodup t ht := by
    rw [List.mem_singleton.1 ht]
    exact List.nodup_singleton start
  path_seen t ht n hn := by
    rw [List.mem_singleton.1 ht] at hn
    exact hn

/-- Taking a trail that does not end at the goal. -/
theorem take (h : Searching g start goal done (t :: queue) seen) (hg : t.last ≠ goal) :
    Searching g start goal (t.last :: done)
      (queue ++ (g.fresh seen t).map fun n => ⟨n, t.last :: t.before⟩) (g.fresh seen t ++ seen) := by
  have ht : t ∈ t :: queue := List.mem_cons_self ..
  have hnew : ∀ {q : Trail}, q ∈ queue ++ (g.fresh seen t).map (fun n => ⟨n, t.last :: t.before⟩) →
      q ∈ t :: queue ∨ ∃ n ∈ g.fresh seen t, ⟨n, t.last :: t.before⟩ = q := fun hq =>
    (List.mem_append.1 hq).imp (List.mem_cons_of_mem _) List.mem_map.1
  exact {
    seen_perm := by
      have hmap : ((g.fresh seen t).map fun n => (⟨n, t.last :: t.before⟩ : Trail)).map Trail.last =
          g.fresh seen t := by rw [List.map_map]; exact List.map_id _
      rw [List.map_append, hmap]
      refine (h.seen_perm.append_left _).trans ?_
      rw [List.map_cons]
      refine (List.Perm.append_left _ List.perm_middle).trans ?_
      rw [List.cons_append, ← List.append_assoc]
      exact List.perm_append_comm
    nodup := by
      refine List.nodup_append.2 ⟨nodup_fresh g seen t, h.nodup, ?_⟩
      rintro n hn m hm rfl
      exact (mem_fresh.1 hn).2 hm
    mem_nodes := fun n hn => by
      rcases List.mem_append.1 hn with hn | hn
      · exact (mem_fresh.1 hn).1.mem_nodes.2
      · exact h.mem_nodes n hn
    start_mem := List.mem_append_right _ h.start_mem
    closed := fun a ha b hab => by
      by_cases hb : b ∈ seen
      · exact List.mem_append_right _ hb
      · rcases List.mem_cons.1 ha with rfl | ha
        · exact List.mem_append_left _ (mem_fresh.2 ⟨hab, hb⟩)
        · exact absurd (h.closed a ha b hab) hb
    goal_not_mem := fun hm => by
      rcases List.mem_cons.1 hm with rfl | hm
      · exact hg rfl
      · exact h.goal_not_mem hm
    leads := fun q hq => by
      rcases hnew hq with hq | ⟨n, hn, rfl⟩
      · exact h.leads q hq
      · rw [Trail.path_extend]
        exact (h.leads t ht).snoc (mem_fresh.1 hn).1
    path_nodup := fun q hq => by
      rcases hnew hq with hq | ⟨n, hn, rfl⟩
      · exact h.path_nodup q hq
      · rw [Trail.path_extend]
        refine List.nodup_append.2 ⟨h.path_nodup t ht, List.nodup_singleton n, ?_⟩
        rintro m hm _ hn' rfl
        rw [List.mem_singleton.1 hn'] at hm
        exact (mem_fresh.1 hn).2 (h.path_seen t ht n hm)
    path_seen := fun q hq m hm => by
      rcases hnew hq with hq | ⟨n, hn, rfl⟩
      · exact List.mem_append_right _ (h.path_seen q hq m hm)
      · rw [Trail.path_extend, List.mem_append, List.mem_singleton] at hm
        rcases hm with hm | rfl
        · exact List.mem_append_right _ (h.path_seen t ht m hm)
        · exact List.mem_append_left _ hn }

/-- When the queue is empty, no edge leaves the nodes that were discovered. -/
theorem not_reach_of_nil (h : Searching g start goal done [] seen) : ¬ g.Reach start goal := by
  have hmem : ∀ {n}, n ∈ seen ↔ n ∈ done := fun {n} => by
    rw [h.seen_perm.mem_iff, List.map_nil, List.append_nil]
  have hall : ∀ n, g.Reach start n → n ∈ seen := fun n hn => by
    induction hn with
    | refl => exact h.start_mem
    | tail _ hab ih => exact h.closed _ (hmem.1 ih) _ hab
  exact fun hr => h.goal_not_mem (hmem.1 (hall goal hr))

/-- When as many trails have been taken as there are nodes, the queue is empty. -/
theorem queue_eq_nil (h : Searching g start goal done queue seen)
    (hd : g.nodeCount ≤ done.length) : queue = [] := by
  have hle : seen.length ≤ g.nodeCount := (h.nodup.subperm h.mem_nodes).length_le
  have hlen := h.seen_perm.length_eq
  rw [List.length_append, List.length_map] at hlen
  exact List.length_eq_zero_iff.1 (by omega)

/-- A search with enough fuel finds a path if there is one. -/
theorem search_spec (h : Searching g start goal done queue seen) {fuel : Nat}
    (hf : g.nodeCount ≤ done.length + fuel) :
    (∀ p, g.search goal fuel queue seen = some p → Leads g.Adj start goal p ∧ p.Nodup) ∧
      (g.search goal fuel queue seen = none → ¬ g.Reach start goal) := by
  induction fuel generalizing done queue seen with
  | zero =>
    obtain rfl := h.queue_eq_nil (by omega)
    exact ⟨fun p hp => (nomatch hp), fun _ => h.not_reach_of_nil⟩
  | succ fuel ih =>
    cases queue with
    | nil => exact ⟨fun p hp => (nomatch hp), fun _ => h.not_reach_of_nil⟩
    | cons t queue =>
      have ht : t ∈ t :: queue := List.mem_cons_self ..
      rw [search]
      split
      · next hg =>
        refine ⟨fun p hp => ?_, fun hn => nomatch hn⟩
        obtain rfl := Option.some_inj.1 hp
        exact ⟨hg ▸ h.leads t ht, h.path_nodup t ht⟩
      · next hg =>
        exact ih (h.take hg) (by rw [List.length_cons]; omega)

end Searching

theorem path?_spec (ha : a ∈ g.nodes) (hb : b ∈ g.nodes) :
    (∀ p, g.path? a b = some p → Leads g.Adj a b p ∧ p.Nodup) ∧
      (g.path? a b = none → ¬ g.Reach a b) := by
  rw [path?, if_pos ⟨ha, hb⟩]
  exact (Searching.initial ha).search_spec (Nat.le_add_left ..)

theorem mem_nodes_of_path? (h : g.path? a b = some p) : a ∈ g.nodes ∧ b ∈ g.nodes := by
  by_contra hn
  rw [path?, if_neg hn] at h
  cases h

/-- A path that is found leads from the start to the goal, and visits no node
twice. -/
theorem leads_of_path? (h : g.path? a b = some p) : Leads g.Adj a b p ∧ p.Nodup := by
  obtain ⟨ha, hb⟩ := mem_nodes_of_path? h
  exact (path?_spec ha hb).1 p h

/-- A path is found if there is one. -/
theorem path?_eq_none_iff (ha : a ∈ g.nodes) (hb : b ∈ g.nodes) :
    g.path? a b = none ↔ ¬ g.Reach a b := by
  refine ⟨(path?_spec ha hb).2, fun hr => ?_⟩
  rw [Option.eq_none_iff_forall_ne_some]
  exact fun p hp => hr (leads_of_path? hp).1.reflTransGen

/-! ## Graphs with the same edges -/

theorem successors_congr (he : g.edges = h.edges) (n : GroupId) :
    g.successors n = h.successors n := by
  rw [successors, successors, he]

theorem search_congr (he : g.edges = h.edges) (goal : GroupId) (fuel : Nat) (queue : List Trail)
    (seen : List GroupId) : g.search goal fuel queue seen = h.search goal fuel queue seen := by
  induction fuel generalizing queue seen with
  | zero => rfl
  | succ fuel ih =>
    cases queue with
    | nil => rfl
    | cons t queue =>
      rw [search, search, fresh, fresh, successors_congr he, ih]

/-- Paths depend on nodes and edges only. -/
theorem path?_congr (hn : g.nodes = h.nodes) (he : g.edges = h.edges) (a b : GroupId) :
    g.path? a b = h.path? a b := by
  rw [path?, path?, hn, nodeCount, nodeCount, hn, search_congr he]

end Graph

end Layering
