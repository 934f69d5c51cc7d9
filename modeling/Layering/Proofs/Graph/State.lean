import Layering.Proofs.Graph.Component

/-!
# States of the search for components

The states that the search goes through (`Visit.Passed`). In each of them, a pending
visit has a number and a low-link to look up (`Visit.Passed.lookup`), and the search
ends when no visit is pending.
-/

namespace Layering.Graph.Visit

variable {g : Graph} {s : Visit} {n : GroupId}

/-- The states between the start of the search and its end. -/
inductive Passed (g : Graph) : Visit → Prop
  | initial : Passed g .initial
  /-- With no visit pending, the next node without a number is entered. -/
  | enter {s : Visit} {n : GroupId} (h : Passed g s) (hwork : s.work = []) (hn : n ∈ g.nodes)
    (hnew : ¬ s.Visited n) : Passed g (s.enter g n)
  /-- A pending visit makes a move. -/
  | step {s : Visit} (h : Passed g s) (hwork : s.work ≠ []) : Passed g (s.step g)

namespace Passed

theorem inv (h : Passed g s) : Inv g s := by
  induction h with
  | initial => exact .initial g
  | @enter s n h hwork hn hnew ih =>
    have hpath : s.path = [] := by rw [path, hwork, List.map_nil]
    exact ih.enter hnew hn (by simp [hpath])
  | @step s h hwork ih =>
    obtain ⟨f, r, hw⟩ := List.exists_cons_of_ne_nil hwork
    exact ih.move hw (move_step hw)

/-- A pending visit has a number and a low-link. -/
theorem lookup (h : Passed g s) : ∀ f ∈ s.work,
    (s.indices.get? f.node).isSome ∧ (s.lowlinks.get? f.node).isSome := fun f hf => by
  have hstack : f.node ∈ s.stack := h.inv.mem_stack_of_mem_path (List.mem_map_of_mem hf)
  exact ⟨h.inv.visited_of_mem_stack hstack, h.inv.low_isSome _ hstack⟩

theorem run (h : Passed g s) (fuel : Nat) : Passed g (s.run g fuel) := by
  induction fuel generalizing s with
  | zero => exact h
  | succ fuel ih =>
    rw [Visit.run]
    split
    · exact h
    · next hwork => exact ih (h.step fun hnil => hwork (by rw [hnil]; rfl))

theorem explore (h : Passed g s) (hwork : s.work = []) (hn : n ∈ g.nodes) :
    Passed g (s.explore g n) := by
  rw [Visit.explore]
  split
  · exact h
  · next hnew => exact (h.enter hwork hn hnew).run _

end Passed

/-- The search goes from state to state until every node is visited and no visit is
pending. -/
theorem passed_foldl (g : Graph) : Passed g (g.nodes.toList.foldl (Visit.explore g) .initial) ∧
    (g.nodes.toList.foldl (Visit.explore g) .initial).work = [] := by
  have h : ∀ (l : List GroupId) (s : Visit), (∀ n ∈ l, n ∈ g.nodes) → Settled g s → Passed g s →
      Passed g (l.foldl (Visit.explore g) s) := by
    intro l
    induction l with
    | nil => exact fun _ _ _ hp => hp
    | cons n l ih =>
      intro s hl hs hp
      obtain ⟨hn, hl⟩ := List.forall_mem_cons.1 hl
      exact ih _ hl (settled_explore hs hn).1 (hp.explore hs.work_eq hn)
  exact ⟨h _ _ (fun _ hn => hn) ⟨.initial g, rfl⟩ .initial, (settled_initial g).1.work_eq⟩

end Layering.Graph.Visit
