import Layering.Proofs.Graph.Log
import Mathlib.Data.Nat.Find

/-!
# Runs

A run enters a root and makes moves until no visit is pending; the next run starts in the state
that it leaves (`Visit.Left`). In each state of a run the stack, the low-links, the finished
components and the pending visits agree (`Visit.Orderly`), and each run comes to an end
(`Visit.Completes`, `Visit.run_exact`).
-/

namespace Layering.Graph

variable {g h : Graph}

namespace Visit

variable {s t : Visit} {root n : GroupId} {f : Frame} {r : List Frame} {k : Nat}

/-- The state of a run after its first `k` moves. -/
def after (g : Graph) (s : Visit) (root : GroupId) (k : Nat) : Visit :=
  (step g)^[k] (s.enter g root)

/-- The nodes that a run has entered after `k` moves. -/
def entered (g : Graph) (s : Visit) (root : GroupId) (k : Nat) : List GroupId :=
  root :: (List.range k).filterMap fun j => (after g s root j).entered?

/-- The edges that a run has looked at after `k` moves. -/
def examined (g : Graph) (s : Visit) (root : GroupId) (k : Nat) : List Edge :=
  (List.range k).filterMap fun j => (after g s root j).edge?

/-- The states between runs. -/
inductive Left (g : Graph) : Visit → Prop
  | initial : Left g .initial
  /-- A run enters a node that has not been visited, and ends when no visit is pending. -/
  | run {s : Visit} {root : GroupId} {k : Nat} (h : Left g s) (hnew : ¬ s.Visited root)
    (hrunning : ∀ j < k, (after g s root j).work ≠ []) (hend : (after g s root k).work = []) :
    Left g (after g s root k)

/-- What holds in every state of a run. -/
structure Orderly (g : Graph) (root : GroupId) (s : Visit) : Prop where
  nodup_stack : s.stack.Nodup
  mem_onStack : ∀ n, n ∈ s.onStack ↔ n ∈ s.stack
  lowBounded : s.LowBounded
  finished : ∀ n, s.Visited n → n ∉ s.stack → s.components.countP (n ∈ ·) = 1
  leads : ∀ f ∈ s.work.head?, Leads g.Adj root f.node s.path.reverse
  path_sublist : s.path.Sublist s.stack
  cursor_le : ∀ f ∈ s.work, f.successors = g.successors f.node ∧ f.cursor ≤ f.successors.length

/-- A run ends after `k` moves. -/
structure Completes (g : Graph) (s : Visit) (root : GroupId) (k : Nat) : Prop where
  orderly : ∀ j ≤ k, Orderly g root (after g s root j)
  /-- Nothing is missing that a move looks up. -/
  lookup : ∀ j < k, (after g s root j).step? g = some (after g s root (j + 1))
  running : ∀ j < k, (after g s root j).work ≠ []
  work_nil : (after g s root k).work = []
  stack_nil : (after g s root k).stack = []
  onStack_empty : (after g s root k).onStack = .empty
  nodup_entered : (entered g s root k).Nodup
  mem_entered : ∀ n, n ∈ entered g s root k ↔ (after g s root k).Visited n ∧ ¬ s.Visited n
  nodup_examined : (examined g s root k).Nodup
  mem_examined : ∀ x y, ⟨x, y⟩ ∈ examined g s root k ↔ x ∈ entered g s root k ∧ g.Adj x y
  moves : k = (entered g s root k).length + (examined g s root k).length
  explore_eq : root ∈ g.nodes → s.explore g root = after g s root k

theorem after_succ (g : Graph) (s : Visit) (root : GroupId) (k : Nat) :
    after g s root (k + 1) = (after g s root k).step g :=
  Function.iterate_succ_apply' ..

theorem filterMap_range_succ {α : Type} (p : Nat → Option α) (k : Nat) :
    (List.range (k + 1)).filterMap p = (List.range k).filterMap p ++ (p k).toList := by
  rw [List.range_succ, List.filterMap_append, List.filterMap_cons]
  cases p k <;> rfl

theorem entered_succ (g : Graph) (s : Visit) (root : GroupId) (k : Nat) :
    entered g s root (k + 1) = entered g s root k ++ (after g s root k).entered?.toList := by
  rw [entered, entered, filterMap_range_succ, List.cons_append]

theorem examined_succ (g : Graph) (s : Visit) (root : GroupId) (k : Nat) :
    examined g s root (k + 1) = examined g s root k ++ (after g s root k).edge?.toList :=
  filterMap_range_succ _ k

/-! ## Roots that are not nodes -/

/-- The invariant holds in a graph with the edges of `g`. A root that is not a node of `g` is one
of such a graph. -/
def Holds (g : Graph) (s : Visit) : Prop := ∃ h : Graph, h.edges = g.edges ∧ Inv h s

theorem enter_congr (he : h.edges = g.edges) (s : Visit) (n : GroupId) :
    s.enter h n = s.enter g n := by
  rw [enter, enter, successors_congr he]

theorem step_congr (he : h.edges = g.edges) : step h = step g := by
  funext s
  simp only [step, enter_congr he]

theorem Inv.addNode (h : Inv g s) (n : GroupId) : Inv (g.addNode n) s where
  toNumbered := { h.toNumbered with
    mem_nodes := fun m hm => OrdSet.mem_insert.2 (.inr (h.mem_nodes m hm)) }
  toLinked := { h.toLinked with }
  toFinished := { h.toFinished with }

namespace Holds

theorem enter (h : Holds g s) (hwork : s.work = []) (hnew : ¬ s.Visited n) :
    Holds g (s.enter g n) := by
  obtain ⟨h, he, hinv⟩ := h
  have he' : (h.addNode n).edges = g.edges := he
  have hpath : s.path = [] := by rw [path, hwork, List.map_nil]
  refine ⟨h.addNode n, he', ?_⟩
  rw [← enter_congr he']
  exact (hinv.addNode n).enter hnew (OrdSet.mem_insert.2 (.inl rfl)) (by simp [hpath])

theorem step (h : Holds g s) (hw : s.work = f :: r) : Holds g (s.step g) := by
  obtain ⟨h, he, hinv⟩ := h
  rw [← step_congr he]
  exact ⟨h, he, hinv.move hw (move_step hw)⟩

end Holds

theorem Inv.exists_work_nil (h : Inv g s) : ∃ k, ((Visit.step g)^[k] s).work = [] := by
  -- each move leaves less to do
  induction he : s.effort g using Nat.strong_induction_on generalizing s with
  | _ e ih =>
    cases hw : s.work with
    | nil => exact ⟨0, hw⟩
    | cons f r =>
      have m := move_step (g := g) hw
      obtain ⟨k, hk⟩ := ih _ (he ▸ effort_move_lt h hw m) (h.move hw m) rfl
      exact ⟨k + 1, hk⟩

theorem Holds.exists_work_nil (h : Holds g s) : ∃ k, ((Visit.step g)^[k] s).work = [] := by
  obtain ⟨h, he, hinv⟩ := h
  rw [← step_congr he]
  exact hinv.exists_work_nil

/-! ## The states of a run -/

/-- What a state between runs satisfies. -/
structure Rested (g : Graph) (s : Visit) : Prop where
  holds : Holds g s
  lowBounded : LowBounded s
  work_nil : s.work = []

/-- What the state of a run satisfies after `k` moves. -/
structure Underway (g : Graph) (s : Visit) (root : GroupId) (k : Nat) : Prop where
  holds : Holds g (after g s root k)
  lowBounded : LowBounded (after g s root k)
  trail : Trail g root (after g s root k)
  logged : Logged g s root (after g s root k) (entered g s root k) (examined g s root k) k

namespace Underway

theorem start (h : Rested g s) (hnew : ¬ s.Visited root) : Underway g s root 0 where
  holds := h.holds.enter h.work_nil hnew
  lowBounded := h.lowBounded.enter g root
  trail := .enter g h.work_nil root
  logged := .start g h.work_nil hnew

theorem succ (h : Underway g s root k) (hwork : (after g s root k).work ≠ []) :
    Underway g s root (k + 1) := by
  obtain ⟨f, r, hw⟩ := List.exists_cons_of_ne_nil hwork
  have hshift := (move_step (g := g) hw).shift
  have hpath : (after g s root k).path.Nodup := by
    obtain ⟨i, -, hinv⟩ := h.holds
    exact (List.nodup_append.1 hinv.nodup).1.sublist hinv.path_sublist
  constructor <;> rw [after_succ]
  · exact h.holds.step hw
  · exact h.lowBounded.move (move_step hw)
  · exact h.trail.shift hw hshift
  · rw [entered_succ, examined_succ]
    exact h.logged.shift h.trail hpath hw hshift

theorem of_running (h : Rested g s) (hnew : ¬ s.Visited root)
    (hrunning : ∀ j < k, (after g s root j).work ≠ []) : Underway g s root k := by
  induction k with
  | zero => exact start h hnew
  | succ k ih => exact (ih fun j hj => hrunning j (by omega)).succ (hrunning k (by omega))

end Underway

theorem Left.rested (h : Left g s) : Rested g s := by
  induction h with
  | initial => exact ⟨⟨g, rfl, .initial g⟩, .initial, rfl⟩
  | run h hnew hrunning hend ih =>
    have hu := Underway.of_running ih hnew hrunning
    exact ⟨hu.holds, hu.lowBounded, hend⟩

/-- Where no node stands twice, each is in one component only. -/
theorem countP_mem_eq_one {l : List (List GroupId)} (hl : l.flatten.Nodup) (hn : n ∈ l.flatten) :
    l.countP (n ∈ ·) = 1 := by
  induction l with
  | nil => cases hn
  | cons c l ih =>
    rw [List.flatten_cons] at hl hn
    obtain ⟨-, hl, hdisj⟩ := List.nodup_append.1 hl
    rw [List.countP_cons]
    by_cases hc : n ∈ c
    · have hzero : l.countP (n ∈ ·) = 0 := List.countP_eq_zero.2 fun d hd hnd =>
        hdisj n hc n (List.mem_flatten_of_mem hd (of_decide_eq_true hnd)) rfl
      rw [hzero, if_pos (decide_eq_true hc)]
    · rw [ih hl ((List.mem_append.1 hn).resolve_left hc), if_neg (by simpa using hc)]

theorem Underway.orderly (h : Underway g s root k) : Orderly g root (after g s root k) := by
  obtain ⟨i, -, hinv⟩ := h.holds
  obtain ⟨hstack, hcomponents, -⟩ := List.nodup_append.1 hinv.nodup
  exact {
    nodup_stack := hstack
    mem_onStack := hinv.onStack_iff
    lowBounded := h.lowBounded
    finished := fun n hn hnot =>
      countP_mem_eq_one hcomponents (((hinv.visited_iff n).1 hn).resolve_left hnot)
    leads := fun f hf => by
      obtain ⟨r, hw⟩ := List.head?_eq_some_iff.1 hf
      exact h.trail.leads hw
    path_sublist := hinv.path_sublist
    cursor_le := h.trail.cursor_le }

theorem Underway.lookup (h : Underway g s root k) :
    (after g s root k).step? g = some (after g s root (k + 1)) := by
  rw [after_succ]
  refine step?_eq h.lowBounded fun f hf => ?_
  exact ((h.logged.mem_entered f.node).1 (h.logged.path_entered _ (List.mem_map_of_mem hf))).1

/-! ## The end of a run -/

/-- When no visit is pending, no node is on the stack. -/
theorem Holds.stack_eq (h : Holds g s) (hwork : s.work = []) : s.stack = [] := by
  obtain ⟨i, -, hinv⟩ := h
  exact Settled.stack_eq ⟨hinv, hwork⟩

/-- A run of a node makes at most as many moves as there are nodes and edges. -/
theorem Logged.le_size {entered : List GroupId} {examined : List Edge}
    (h : Logged g s root t entered examined k) (hwork : t.work = []) (hroot : root ∈ g.nodes) :
    k ≤ g.nodeCount + g.edgeCount := by
  have hnodes : entered.length ≤ g.nodes.toList.length := by
    refine (h.nodup_entered.subperm fun n hn => ?_).length_le
    rcases h.reached n hn with rfl | ⟨a, ha⟩
    · exact hroot
    · exact ha.mem_nodes.2
  have hedges : examined.length ≤ g.edges.toList.length := by
    refine (h.nodup_examined.subperm fun e he => ?_).length_le
    exact ((h.mem_examined e.source e.target).1 he).2.1
  have hmoves := h.moves
  rw [hwork, List.length_nil] at hmoves
  rw [length_edges] at hedges
  exact hmoves.trans_le (Nat.add_le_add hnodes hedges)

/-- With enough fuel, moves are made until no visit is pending. -/
theorem run_eq_iterate {fuel : Nat} (hrunning : ∀ j < k, ((Visit.step g)^[j] s).work ≠ [])
    (hend : ((Visit.step g)^[k] s).work = []) (hk : k ≤ fuel) :
    s.run g fuel = (Visit.step g)^[k] s := by
  induction fuel generalizing s k with
  | zero =>
    obtain rfl := Nat.le_zero.1 hk
    rfl
  | succ fuel ih =>
    rw [run]
    cases k with
    | zero => exact if_pos (List.isEmpty_iff.2 hend)
    | succ k =>
      have hwork : s.work ≠ [] := hrunning 0 k.succ_pos
      rw [if_neg fun hnil => hwork (List.isEmpty_iff.1 hnil)]
      exact ih (fun j hj => hrunning (j + 1) (by omega)) hend (by omega)

theorem completes (h : Left g s) (hnew : ¬ s.Visited root)
    (hrunning : ∀ j < k, (after g s root j).work ≠ []) (hend : (after g s root k).work = []) :
    Completes g s root k := by
  have hunderway : ∀ j ≤ k, Underway g s root j := fun j hj =>
    .of_running h.rested hnew fun i hi => hrunning i (by omega)
  have hlast := hunderway k le_rfl
  have hstack := hlast.holds.stack_eq hend
  have hpending : ∀ x y, ¬ (after g s root k).Pending x y := fun x y ⟨f, hf, _⟩ => by
    rw [hend] at hf
    cases hf
  exact {
    orderly := fun j hj => (hunderway j hj).orderly
    lookup := fun j hj => (hunderway j hj.le).lookup
    running := hrunning
    work_nil := hend
    stack_nil := hstack
    onStack_empty := OrdSet.ext_mem fun n => by
      rw [hlast.orderly.mem_onStack, hstack]
      exact iff_of_false List.not_mem_nil (OrdSet.not_mem_empty n)
    nodup_entered := hlast.logged.nodup_entered
    mem_entered := hlast.logged.mem_entered
    nodup_examined := hlast.logged.nodup_examined
    mem_examined := fun x y => by simp only [hlast.logged.mem_examined, hpending, not_false_eq_true,
      and_true]
    moves := by
      have hmoves := hlast.logged.moves
      rwa [hend] at hmoves
    explore_eq := fun hroot =>
      (if_neg hnew).trans (run_eq_iterate hrunning hend (hlast.logged.le_size hend hroot)) }

theorem Left.exists_completes (h : Left g s) (hnew : ¬ s.Visited root) :
    ∃ k, Completes g s root k := by
  have hend := (h.rested.holds.enter h.rested.work_nil hnew).exists_work_nil
  classical
  exact ⟨Nat.find hend, completes h hnew (fun j hj => Nat.find_min hend hj) (Nat.find_spec hend)⟩

theorem left_foldl {l : List GroupId} (hl : ∀ n ∈ l, n ∈ g.nodes) (h : Left g s) :
    Left g (l.foldl (explore g) s) := by
  induction l generalizing s with
  | nil => exact h
  | cons root l ih =>
    obtain ⟨hroot, hl⟩ := List.forall_mem_cons.1 hl
    refine ih hl ?_
    by_cases hv : s.Visited root
    · have hsame : s.explore g root = s := if_pos hv
      rwa [hsame]
    · obtain ⟨k, hk⟩ := h.exists_completes hv
      rw [hk.explore_eq hroot]
      exact h.run hv hk.running hk.work_nil

/-- The search for components goes from run to run. A run of any root that has not been visited
ends: all its states are in order, nothing is missing that it looks up, it enters each new node that
it visits once, looks at each edge from these nodes once, and leaves nothing on the stack. -/
theorem run_exact (g : Graph) :
    (∀ l : List GroupId, (∀ n ∈ l, n ∈ g.nodes) → Left g (l.foldl (explore g) .initial)) ∧
      ∀ s root, Left g s → ¬ s.Visited root → ∃ k, Completes g s root k :=
  ⟨fun _ hl => left_foldl hl .initial, fun _ _ h hnew => h.exists_completes hnew⟩

/-- A run of a node whose edge leads to a cycle that an earlier run has finished. -/
theorem run_exact_after_cycle :
    let g := ofEdges [⟨0, 1⟩, ⟨1, 0⟩, ⟨2, 1⟩]
    let s := [0].foldl (explore g) .initial
    Left g s ∧ s.Visited 1 ∧ ¬ s.Visited 2 ∧ ∃ k, Completes g s 2 k := by
  have hleft := (run_exact (ofEdges [⟨0, 1⟩, ⟨1, 0⟩, ⟨2, 1⟩])).1 [0] (by decide)
  have hnew : ¬ ([0].foldl (explore (ofEdges [⟨0, 1⟩, ⟨1, 0⟩, ⟨2, 1⟩])) .initial).Visited 2 := by
    unfold Visited
    decide
  exact ⟨hleft, by unfold Visited; decide, hnew, (run_exact _).2 _ 2 hleft hnew⟩

end Visit

end Layering.Graph
