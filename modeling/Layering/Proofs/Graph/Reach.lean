import Layering.Graph.Basic
import Mathlib.Data.List.Chain
import Mathlib.Logic.Relation

/-!
# Reachability

Walks in a graph, what an added edge does to them, and graphs without a
directed cycle:

* `Leads.reflTransGen`: what a list of nodes leads to is reached;
* `Graph.Acyclic.addEdge`: an edge whose target does not reach its source
  closes no cycle;
* `Graph.transGen_addEdge_self`: and any other edge does.
-/

namespace Layering

open Relation (ReflTransGen TransGen)

/-- A list of nodes that leads from `a` to `b`, each node related to the next. -/
structure Leads (r : GroupId → GroupId → Prop) (a b : GroupId) (p : List GroupId) : Prop where
  head : p.head? = some a
  last : p.getLast? = some b
  chain : p.IsChain r

namespace Leads

variable {r s : GroupId → GroupId → Prop} {a b : GroupId} {p : List GroupId}

theorem imp (h : ∀ x y, r x y → s x y) (hp : Leads r a b p) : Leads s a b p :=
  ⟨hp.head, hp.last, hp.chain.imp h⟩

theorem reflTransGen (hp : Leads r a b p) : ReflTransGen r a b := by
  obtain ⟨hh, hl, hc⟩ := hp
  obtain ⟨l, rfl⟩ : ∃ l, p = a :: l := by
    cases p with
    | nil => cases hh
    | cons x l => cases hh; exact ⟨l, rfl⟩
  have hb : (a :: l).getLast (List.cons_ne_nil a l) = b := by
    rw [List.getLast?_eq_getLast_of_ne_nil (List.cons_ne_nil a l)] at hl
    exact Option.some_inj.1 hl
  exact List.relationReflTransGen_of_exists_isChain_cons l hc hb

/-- What stands on a path is reached from its start and reaches its end. -/
theorem reflTransGen_of_mem (hp : Leads r a b p) {x : GroupId} (hx : x ∈ p) :
    ReflTransGen r a x ∧ ReflTransGen r x b := by
  obtain ⟨pre, post, rfl⟩ := List.append_of_mem hx
  obtain ⟨hh, hl, hc⟩ := hp
  have hbefore : Leads r a x (pre ++ [x]) :=
    { head := by cases pre <;> simpa using hh
      last := by simp
      chain := hc.infix ⟨[], post, by simp⟩ }
  have hafter : Leads r x b (x :: post) :=
    { head := rfl
      last := by rwa [List.getLast?_append_cons] at hl
      chain := hc.right_of_append }
  exact ⟨hbefore.reflTransGen, hafter.reflTransGen⟩

end Leads

namespace Graph

/-- A node can be reached from another along edges. -/
abbrev Reach (g : Graph) : GroupId → GroupId → Prop := ReflTransGen g.Adj

/-- Two nodes reach each other. -/
def Mutual (g : Graph) (a b : GroupId) : Prop := g.Reach a b ∧ g.Reach b a

/-- There is no directed cycle. -/
def Acyclic (g : Graph) : Prop := ∀ a, ¬ TransGen g.Adj a a

variable {g : Graph} {a b : GroupId}

/-- There is an edge if one has a weight. -/
theorem adj_iff_exists_weight : g.Adj a b ↔ ∃ w, g.weight? ⟨a, b⟩ = some w :=
  mem_edges.trans Option.isSome_iff_exists

theorem Reach.mem_nodes (h : g.Reach a b) (ha : a ∈ g.nodes) : b ∈ g.nodes := by
  cases h with
  | refl => exact ha
  | tail _ hb => exact hb.mem_nodes.2

/-- Two different nodes that reach each other lie on a cycle. -/
theorem Acyclic.eq_of_mutual (hg : g.Acyclic) (h : g.Mutual a b) : a = b := by
  by_contra hne
  have hab : TransGen g.Adj a b := (Relation.reflTransGen_iff_eq_or_transGen.1 h.1).resolve_left
    fun e => hne e.symm
  exact hg a (hab.trans_left h.2)

/-! ## Added edges -/

theorem adj_addEdge {e : Edge} {w : Nat} (h : e.source ≠ e.target) :
    (g.addEdge e w).Adj a b ↔ g.Adj a b ∨ ⟨a, b⟩ = e := by
  simp only [Adj, mem_edges, weight?_addEdge _ h]
  by_cases hd : (⟨a, b⟩ : Edge) = e <;> simp [hd]

theorem Adj.addEdge (h : g.Adj a b) (e : Edge) (w : Nat) : (g.addEdge e w).Adj a b := by
  by_cases hl : e.source = e.target
  · rwa [addEdge_loop g w hl]
  · exact (adj_addEdge hl).2 (.inl h)

theorem mem_nodes_addEdge_of_mem {x : GroupId} (h : x ∈ g.nodes) (e : Edge) (w : Nat) :
    x ∈ (g.addEdge e w).nodes := by
  by_cases hl : e.source = e.target
  · rwa [addEdge_loop g w hl]
  · exact (mem_nodes_addEdge hl).2 (.inr (.inr h))

/-- A walk along old edges and a new one is a walk along old edges, or one to the
source of the new edge and another from its target. -/
theorem transGen_addEdge {e : Edge} {w : Nat} (hl : e.source ≠ e.target)
    (h : TransGen (g.addEdge e w).Adj a b) :
    TransGen g.Adj a b ∨ (g.Reach a e.source ∧ g.Reach e.target b) := by
  induction h with
  | single h =>
    rcases (adj_addEdge hl).1 h with h | rfl
    · exact .inl (.single h)
    · exact .inr ⟨.refl, .refl⟩
  | tail _ h ih =>
    rcases (adj_addEdge hl).1 h with h | rfl
    · exact ih.imp (·.tail h) fun ⟨h₁, h₂⟩ => ⟨h₁, h₂.tail h⟩
    · exact .inr ⟨ih.elim TransGen.to_reflTransGen (·.1), .refl⟩

/-- An edge whose target does not reach its source closes no cycle. -/
theorem Acyclic.addEdge (hg : g.Acyclic) {e : Edge} (he : ¬ g.Reach e.target e.source) (w : Nat) :
    (g.addEdge e w).Acyclic := by
  intro a h
  by_cases hl : e.source = e.target
  · rw [addEdge_loop g w hl] at h
    exact hg a h
  · rcases transGen_addEdge hl h with h | ⟨h₁, h₂⟩
    · exact hg a h
    · exact he (h₂.trans h₁)

/-- An edge whose target reaches its source closes a cycle through both. -/
theorem transGen_addEdge_self {e : Edge} (hl : e.source ≠ e.target)
    (he : g.Reach e.target e.source) (w : Nat) :
    TransGen (g.addEdge e w).Adj e.source e.source :=
  .head' ((adj_addEdge hl).2 (.inr rfl)) (he.lift id fun _ _ h => h.addEdge e w)

end Graph

end Layering
