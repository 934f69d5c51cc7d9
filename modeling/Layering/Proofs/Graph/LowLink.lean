import Layering.Graph.Component
import Layering.Proofs.Graph.Reach
import Mathlib.Data.List.Nodup

/-!
# Low-links

What every state of the search for components satisfies (`Visit.Inv`), in three
parts:

* `Visit.Numbered`: the visited nodes are those on the stack and those in
  finished components; numbers fall along the stack, and the pending visits stand
  on it in this order;
* `Visit.Linked`: a pending visit reaches all nodes above it on the stack, a
  low-link is the number of a node that can be reached, and no low-link above a
  pending visit is less than the low-links of that visit and those above it;
* `Visit.Finished`: a finished component is one of nodes that reach each other,
  and no edge leads from it to an unfinished node or a later component.

Lowering a low-link (`Visit.Inv.lower`), moving past an edge (`Visit.Inv.advance`)
and opening a visit (`Visit.Inv.enter`) keep all three.
-/

namespace Layering.Graph.Visit

variable {g : Graph} {s : Visit} {n p x y : GroupId}

/-- The search has come to a node. -/
def Visited (s : Visit) (n : GroupId) : Prop := (s.indices.get? n).isSome

/-- The number of a visited node. -/
def num (s : Visit) (n : GroupId) : Nat := (s.indices.get? n).getD 0

/-- The nodes whose visits are pending, latest first. -/
def path (s : Visit) : List GroupId := s.work.map Frame.node

/-- A pending visit has not looked at the edge from `x` to `y` yet. -/
def Pending (s : Visit) (x y : GroupId) : Prop :=
  ∃ f ∈ s.work, f.node = x ∧ y ∈ f.successors.drop f.cursor

theorem visited_enter : (s.enter g n).Visited x ↔ x = n ∨ s.Visited x := by
  simp only [Visited, enter, OrdMap.get?_insert]
  split <;> simp [*]

theorem num_enter : (s.enter g n).num x = if x = n then s.index else s.num x := by
  simp only [num, enter, OrdMap.get?_insert]
  split <;> rfl

theorem low_enter : (s.enter g n).low x = if x = n then s.index else s.low x := by
  simp only [low, enter, OrdMap.get?_insert]
  split <;> rfl

theorem num_enter_self : (s.enter g n).num n = s.index := by rw [num_enter, if_pos rfl]

theorem low_enter_self : (s.enter g n).low n = s.index := by rw [low_enter, if_pos rfl]

theorem num_enter_of_ne (h : x ≠ n) : (s.enter g n).num x = s.num x := by
  rw [num_enter, if_neg h]

theorem low_enter_of_ne (h : x ≠ n) : (s.enter g n).low x = s.low x := by
  rw [low_enter, if_neg h]

theorem indices_lower (s : Visit) (p : GroupId) (k : Nat) : (s.lower p k).indices = s.indices := rfl

theorem low_lower (k : Nat) :
    (s.lower p k).low x = if x = p then min (s.low p) k else s.low x := by
  simp only [low, lower, OrdMap.get?_insert]
  split <;> rfl

theorem low_lower_le (k : Nat) : (s.lower p k).low x ≤ s.low x := by
  rw [low_lower]
  split
  · next h => rw [h]; exact Nat.min_le_left _ _
  · exact Nat.le_refl _

theorem low_lower_of_ne (h : x ≠ p) (k : Nat) : (s.lower p k).low x = s.low x := by
  rw [low_lower, if_neg h]

/-! ## The invariant -/

/-- Visited nodes and their numbers. -/
structure Numbered (g : Graph) (s : Visit) : Prop where
  num_lt : ∀ n, s.Visited n → s.num n < s.index
  mem_nodes : ∀ n, s.Visited n → n ∈ g.nodes
  visited_iff : ∀ n, s.Visited n ↔ n ∈ s.stack ∨ n ∈ s.components.flatten
  nodup : (s.stack ++ s.components.flatten).Nodup
  onStack_iff : ∀ n, n ∈ s.onStack ↔ n ∈ s.stack
  falling : s.stack.Pairwise fun a b => s.num b < s.num a
  path_sublist : s.path.Sublist s.stack
  successors_eq : ∀ f ∈ s.work, f.successors = g.successors f.node

/-- Reachability among the nodes on the stack, and what low-links know of it. -/
structure Linked (g : Graph) (s : Visit) : Prop where
  reach : ∀ p ∈ s.path, ∀ x ∈ s.stack, s.num p ≤ s.num x → g.Reach p x
  rooted : ∀ x ∈ s.stack, ∃ p ∈ s.path, s.num p ≤ s.num x
  low_isSome : ∀ x ∈ s.stack, (s.lowlinks.get? x).isSome
  low_le : ∀ x ∈ s.stack, s.low x ≤ s.num x
  low_lt : ∀ x ∈ s.stack, x ∉ s.path → s.low x < s.num x
  low_reach : ∀ x ∈ s.stack, ∃ y ∈ s.stack, s.num y = s.low x ∧ g.Reach x y
  /-- What `x` can reach is known to a pending visit between `p` and `x`. -/
  low_path : ∀ p ∈ s.path, ∀ x ∈ s.stack, s.num p ≤ s.num x →
    ∃ q ∈ s.path, s.num p ≤ s.num q ∧ s.low q ≤ s.low x
  explored : ∀ x ∈ s.stack, ∀ y, g.Adj x y →
    s.Pending x y ∨ (s.Visited y ∧ (y ∈ s.stack → s.low x ≤ s.num y))

/-- Finished components. -/
structure Finished (g : Graph) (s : Visit) : Prop where
  closed : ∀ x ∈ s.components.flatten, ∀ y, g.Adj x y → y ∈ s.components.flatten
  ordered : s.components.Pairwise fun c d => ∀ x ∈ c, ∀ y ∈ d, ¬ g.Adj x y
  ne_nil : ∀ c ∈ s.components, c ≠ []
  reach_of_mem : ∀ c ∈ s.components, ∀ x ∈ c, ∀ y ∈ c, g.Reach x y

/-- What holds in every state of the search. -/
structure Inv (g : Graph) (s : Visit) : Prop extends Numbered g s, Linked g s, Finished g s

namespace Numbered

theorem mem_stack_of_mem_path (h : Numbered g s) (hp : p ∈ s.path) : p ∈ s.stack :=
  h.path_sublist.subset hp

theorem visited_of_mem_stack (h : Numbered g s) (hx : x ∈ s.stack) : s.Visited x :=
  (h.visited_iff x).2 (.inl hx)

theorem num_lt_of_mem_stack (h : Numbered g s) (hx : x ∈ s.stack) : s.num x < s.index :=
  h.num_lt x (h.visited_of_mem_stack hx)

theorem ne_of_mem_stack (h : Numbered g s) (hn : ¬ s.Visited n) (hx : x ∈ s.stack) : x ≠ n :=
  fun e => hn (e ▸ h.visited_of_mem_stack hx)

theorem path_falling (h : Numbered g s) : s.path.Pairwise fun a b => s.num b < s.num a :=
  h.falling.sublist h.path_sublist

/-- A pending visit looks at edges of the graph. -/
theorem adj_of_getElem? (h : Numbered g s) {f : Frame} (hf : f ∈ s.work)
    (hy : f.successors[f.cursor]? = some y) : g.Adj f.node y := by
  have hmem := List.mem_of_getElem? hy
  rwa [h.successors_eq f hf, mem_successors] at hmem

/-- A new node may be numbered. -/
theorem enter (h : Numbered g s) (hn : ¬ s.Visited n) (hg : n ∈ g.nodes) :
    Numbered g (s.enter g n) where
  num_lt x hx := by
    rcases visited_enter.1 hx with rfl | hx
    · rw [num_enter_self]
      exact Nat.lt_succ_self _
    · rw [num_enter_of_ne fun (e : x = n) => hn (e ▸ hx)]
      exact Nat.lt_succ_of_lt (h.num_lt x hx)
  mem_nodes x hx := by
    rcases visited_enter.1 hx with rfl | hx
    · exact hg
    · exact h.mem_nodes x hx
  visited_iff x := by
    rw [visited_enter, h.visited_iff, ← or_assoc]
    exact or_congr_left List.mem_cons.symm
  nodup := List.nodup_cons.2
    ⟨fun hm => hn ((h.visited_iff n).2 (List.mem_append.1 hm)), h.nodup⟩
  onStack_iff x := by
    rw [Visit.enter, OrdSet.mem_insert, h.onStack_iff, List.mem_cons]
  falling := by
    refine List.pairwise_cons.2 ⟨fun x hx => ?_, h.falling.imp_of_mem fun ha hb hlt => ?_⟩
    · rw [num_enter_self, num_enter_of_ne (h.ne_of_mem_stack hn hx)]
      exact h.num_lt_of_mem_stack hx
    · rwa [num_enter_of_ne (h.ne_of_mem_stack hn ha), num_enter_of_ne (h.ne_of_mem_stack hn hb)]
  path_sublist := h.path_sublist.cons_cons n
  successors_eq f hf := by
    rcases List.mem_cons.1 hf with rfl | hf
    · rfl
    · exact h.successors_eq f hf

end Numbered

namespace Inv

theorem initial (g : Graph) : Inv g initial where
  num_lt _ h := by cases h
  mem_nodes _ h := by cases h
  visited_iff _ := by simp [Visited, Visit.initial]
  nodup := .nil
  onStack_iff _ := by simp [Visit.initial]
  falling := .nil
  path_sublist := .slnil
  successors_eq _ h := by cases h
  reach _ h := by cases h
  rooted _ h := by cases h
  low_isSome _ h := by cases h
  low_le _ h := by cases h
  low_lt _ h := by cases h
  low_reach _ h := by cases h
  low_path _ h := by cases h
  explored _ h := by cases h
  closed _ h := by cases h
  ordered := .nil
  ne_nil _ h := by cases h
  reach_of_mem _ h := by cases h

/-! ## Looking at an edge -/

/-- The low-link of a pending visit may be lowered to the number of a node that
the visit reaches. -/
theorem lower (h : Inv g s) (hp : p ∈ s.path) {k : Nat}
    (hk : s.low p ≤ k ∨ ∃ y ∈ s.stack, s.num y = k ∧ g.Reach p y) : Inv g (s.lower p k) where
  toNumbered := { h.toNumbered with }
  toFinished := { h.toFinished with }
  reach := h.reach
  rooted := h.rooted
  low_isSome x hx := by
    simp only [Visit.lower, OrdMap.get?_insert]
    split
    · rfl
    · exact h.low_isSome x hx
  low_le x hx := (low_lower_le k).trans (h.low_le x hx)
  low_lt x hx hn := (low_lower_le k).trans_lt (h.low_lt x hx hn)
  low_reach x hx := by
    by_cases hxp : x = p
    · subst hxp
      rw [low_lower, if_pos rfl]
      by_cases hle : s.low x ≤ k
      · rw [Nat.min_eq_left hle]
        exact h.low_reach x hx
      · rw [Nat.min_eq_right (Nat.le_of_not_le hle)]
        exact hk.resolve_left hle
    · rw [low_lower_of_ne hxp]
      exact h.low_reach x hx
  low_path q hq x hx hle := by
    by_cases hxp : x = p
    · subst hxp
      exact ⟨x, hp, hle, Nat.le_refl _⟩
    · obtain ⟨v, hv, hqv, hvx⟩ := h.low_path q hq x hx hle
      rw [low_lower_of_ne hxp]
      exact ⟨v, hv, hqv, (low_lower_le k).trans hvx⟩
  explored x hx y hxy := (h.explored x hx y hxy).imp id fun ⟨hv, hl⟩ =>
    ⟨hv, fun hy => (low_lower_le k).trans (hl hy)⟩

/-- A pending visit may move past an edge to a visited node that its low-link
knows of. -/
theorem advance (h : Inv g s) {l r : List Frame} {f : Frame} (hw : s.work = l ++ f :: r)
    (hy : f.successors[f.cursor]? = some y) (hv : s.Visited y)
    (hl : y ∈ s.stack → s.low f.node ≤ s.num y) :
    Inv g { s with work := l ++ { f with cursor := f.cursor + 1 } :: r } := by
  have hpath : { s with work := l ++ { f with cursor := f.cursor + 1 } :: r }.path = s.path := by
    simp [path, hw]
  have hdrop : f.successors.drop f.cursor = y :: f.successors.drop (f.cursor + 1) := by
    obtain ⟨hc, rfl⟩ := List.getElem?_eq_some_iff.1 hy
    exact List.drop_eq_getElem_cons hc
  exact {
    toNumbered := { h.toNumbered with
      path_sublist := hpath ▸ h.path_sublist
      successors_eq := fun e he => by
        have hs := h.successors_eq
        rw [hw] at hs
        rcases List.mem_append.1 he with he | he
        · exact hs e (List.mem_append_left _ he)
        · rcases List.mem_cons.1 he with rfl | he
          · exact hs f (by simp)
          · exact hs e (by simp [he]) }
    toLinked := { h.toLinked with
      reach := hpath ▸ h.reach
      rooted := hpath ▸ h.rooted
      low_lt := hpath ▸ h.low_lt
      low_path := hpath ▸ h.low_path
      explored := fun x hx z hxz => by
        rcases h.explored x hx z hxz with ⟨e, he, rfl, hz⟩ | hr
        · rw [hw] at he
          rcases List.mem_append.1 he with he | he
          · exact .inl ⟨e, List.mem_append_left _ he, rfl, hz⟩
          · rcases List.mem_cons.1 he with rfl | he
            · rw [hdrop] at hz
              rcases List.mem_cons.1 hz with rfl | hz
              · exact .inr ⟨hv, hl⟩
              · exact .inl ⟨_, List.mem_append_right _ (List.mem_cons_self ..), rfl, hz⟩
            · exact .inl ⟨e, by simp [he], rfl, hz⟩
        · exact .inr hr }
    toFinished := { h.toFinished with } }

/-! ## Opening a visit -/

theorem linked_enter (h : Inv g s) (hn : ¬ s.Visited n) (hr : ∀ p ∈ s.path, g.Reach p n) :
    Linked g (s.enter g n) := by
  have hnum : ∀ {x}, x ∈ s.stack → (s.enter g n).num x = s.num x := fun hx =>
    num_enter_of_ne (h.ne_of_mem_stack hn hx)
  have hlow : ∀ {x}, x ∈ s.stack → (s.enter g n).low x = s.low x := fun hx =>
    low_enter_of_ne (h.ne_of_mem_stack hn hx)
  have hps : ∀ {p}, p ∈ s.path → p ∈ s.stack := h.mem_stack_of_mem_path
  -- no node on the stack is above the new one
  have htop : ∀ {x}, x ∈ s.stack → ¬ (s.enter g n).num n ≤ (s.enter g n).num x := fun hx => by
    rw [num_enter_self, hnum hx]
    exact Nat.not_le.2 (h.num_lt_of_mem_stack hx)
  exact {
    reach := fun p hp x hm hle => by
      rcases List.mem_cons.1 hm with rfl | hx
      · rcases List.mem_cons.1 hp with rfl | hp
        · exact .refl
        · exact hr p hp
      · rcases List.mem_cons.1 hp with rfl | hp
        · exact absurd hle (htop hx)
        · rw [hnum (hps hp), hnum hx] at hle
          exact h.reach p hp x hx hle
    rooted := fun x hx => by
      rcases List.mem_cons.1 hx with rfl | hx
      · exact ⟨x, List.mem_cons_self .., Nat.le_refl _⟩
      · obtain ⟨p, hp, hle⟩ := h.rooted x hx
        exact ⟨p, List.mem_cons_of_mem _ hp, by rwa [hnum (hps hp), hnum hx]⟩
    low_isSome := fun x hx => by
      simp only [Visit.enter, OrdMap.get?_insert]
      split
      · rfl
      · next hxn => exact h.low_isSome x ((List.mem_cons.1 hx).resolve_left hxn)
    low_le := fun x hx => by
      rcases List.mem_cons.1 hx with rfl | hx
      · rw [low_enter_self, num_enter_self]
      · rw [hlow hx, hnum hx]
        exact h.low_le x hx
    low_lt := fun x hx hp => by
      obtain ⟨hxn, hp⟩ := not_or.1 (hp ∘ List.mem_cons.2)
      have hx := (List.mem_cons.1 hx).resolve_left hxn
      rw [hlow hx, hnum hx]
      exact h.low_lt x hx hp
    low_reach := fun x hx => by
      rcases List.mem_cons.1 hx with rfl | hx
      · exact ⟨x, List.mem_cons_self .., num_enter_self.trans low_enter_self.symm, .refl⟩
      · obtain ⟨y, hy, he, hxy⟩ := h.low_reach x hx
        exact ⟨y, List.mem_cons_of_mem _ hy, by rw [hnum hy, hlow hx, he], hxy⟩
    low_path := fun p hp x hm hle => by
      rcases List.mem_cons.1 hm with rfl | hx
      · exact ⟨x, List.mem_cons_self .., hle, Nat.le_refl _⟩
      · rcases List.mem_cons.1 hp with rfl | hp
        · exact absurd hle (htop hx)
        · rw [hnum (hps hp), hnum hx] at hle
          obtain ⟨q, hq, hpq, hqx⟩ := h.low_path p hp x hx hle
          refine ⟨q, List.mem_cons_of_mem _ hq, ?_, ?_⟩
          · rwa [hnum (hps hp), hnum (hps hq)]
          · rwa [hlow (hps hq), hlow hx]
    explored := fun x hx y hxy => by
      rcases List.mem_cons.1 hx with rfl | hx
      · exact .inl ⟨_, List.mem_cons_self .., rfl, mem_successors.2 hxy⟩
      · rcases h.explored x hx y hxy with ⟨f, hf, hfx, hfy⟩ | ⟨hv, hl⟩
        · exact .inl ⟨f, List.mem_cons_of_mem _ hf, hfx, hfy⟩
        · refine .inr ⟨visited_enter.2 (.inr hv), fun hy => ?_⟩
          have hy := (List.mem_cons.1 hy).resolve_left fun e => hn (e ▸ hv)
          rw [hlow hx, hnum hy]
          exact hl hy }

/-- The visit of a node that every pending visit reaches may be opened. -/
theorem enter (h : Inv g s) (hn : ¬ s.Visited n) (hg : n ∈ g.nodes)
    (hr : ∀ p ∈ s.path, g.Reach p n) : Inv g (s.enter g n) :=
  ⟨h.toNumbered.enter hn hg, h.linked_enter hn hr, { h.toFinished with }⟩

end Inv

end Layering.Graph.Visit
