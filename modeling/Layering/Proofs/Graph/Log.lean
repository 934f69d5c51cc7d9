import Layering.Proofs.Graph.Trace

/-!
# What a visit enters and looks at

The nodes that the moves of a visit enter and the edges that they look at, and what each move adds
to them:

* no node is entered twice, and what is entered is what has been visited since (`Visit.Entries`);
* no edge is looked at twice, and what is looked at are the edges from these nodes that are not
  pending (`Visit.Looks`);
* there are as many moves as that takes (`Visit.Logged`).
-/

namespace Layering.Graph.Visit

variable {g : Graph} {s s₀ t : Visit} {root x y : GroupId} {f : Frame} {r : List Frame}
  {entered : List GroupId} {examined : List Edge} {k : Nat}

/-- The edge that the next move looks at, if there is one. -/
def edge? (s : Visit) : Option Edge :=
  s.work.head?.bind fun f => f.successors[f.cursor]?.map fun y => ⟨f.node, y⟩

/-- The node that the next move enters, if it enters one. -/
def entered? (s : Visit) : Option GroupId :=
  s.edge?.bind fun e => if (s.indices.get? e.target).isSome then none else some e.target

theorem edge?_cons (hw : s.work = f :: r) :
    s.edge? = f.successors[f.cursor]?.map fun y => ⟨f.node, y⟩ := by
  rw [edge?, hw, List.head?_cons, Option.bind_some]

theorem edge?_eq_some (hw : s.work = f :: r) (hy : f.successors[f.cursor]? = some y) :
    s.edge? = some ⟨f.node, y⟩ := by
  rw [edge?_cons hw, hy, Option.map_some]

theorem edge?_eq_none (hw : s.work = f :: r) (hf : f.successors[f.cursor]? = none) :
    s.edge? = none := by
  rw [edge?_cons hw, hf, Option.map_none]

theorem entered?_eq_some {e : Edge} (he : s.edge? = some e) (hn : ¬ s.Visited e.target) :
    s.entered? = some e.target := by
  rw [entered?, he, Option.bind_some]
  exact if_neg hn

theorem entered?_eq_none {e : Edge} (he : s.edge? = some e) (hv : s.Visited e.target) :
    s.entered? = none := by
  rw [entered?, he, Option.bind_some]
  exact if_pos hv

/-! ## Nodes that are entered -/

/-- The nodes that have been entered since a root was entered in the state `s₀`. -/
structure Entries (g : Graph) (s₀ : Visit) (root : GroupId) (s : Visit)
    (entered : List GroupId) : Prop where
  nodup_entered : entered.Nodup
  mem_entered : ∀ n, n ∈ entered ↔ s.Visited n ∧ ¬ s₀.Visited n
  visited : ∀ n, s₀.Visited n → s.Visited n
  reached : ∀ n ∈ entered, n = root ∨ ∃ a, g.Adj a n
  path_entered : ∀ p ∈ s.path, p ∈ entered

namespace Entries

theorem start (g : Graph) (hwork : s.work = []) (hnew : ¬ s.Visited root) :
    Entries g s root (s.enter g root) [root] where
  nodup_entered := List.nodup_singleton root
  mem_entered n := by
    rw [List.mem_singleton, visited_enter]
    exact ⟨fun hn => ⟨.inl hn, hn ▸ hnew⟩, fun hn => hn.1.resolve_right hn.2⟩
  visited n hn := visited_enter.2 (.inr hn)
  reached n hn := .inl (List.mem_singleton.1 hn)
  path_entered p hp := by
    rw [path, Visit.enter, hwork] at hp
    exact hp

/-- A move may enter a node that has not been visited. -/
theorem snoc (h : Entries g s₀ root s entered) (hn : ¬ s.Visited y) (hadj : g.Adj x y)
    (hvisited : ∀ n, t.Visited n ↔ n = y ∨ s.Visited n) (hpath : ∀ p ∈ t.path, p = y ∨ p ∈ s.path) :
    Entries g s₀ root t (entered ++ [y]) where
  nodup_entered := by
    refine List.nodup_append.2 ⟨h.nodup_entered, List.nodup_singleton y, ?_⟩
    rintro n hmem _ hn' rfl
    rw [List.mem_singleton.1 hn', h.mem_entered] at hmem
    exact hn hmem.1
  mem_entered n := by
    rw [List.mem_append, List.mem_singleton, h.mem_entered, hvisited]
    constructor
    · rintro (⟨hv, hv₀⟩ | rfl)
      · exact ⟨.inr hv, hv₀⟩
      · exact ⟨.inl rfl, fun hv₀ => hn (h.visited n hv₀)⟩
    · rintro ⟨rfl | hv, hv₀⟩
      · exact .inr rfl
      · exact .inl ⟨hv, hv₀⟩
  visited n hv := (hvisited n).2 (.inr (h.visited n hv))
  reached n hn := by
    rcases List.mem_append.1 hn with hn | hn
    · exact h.reached n hn
    · rw [List.mem_singleton.1 hn]
      exact .inr ⟨x, hadj⟩
  path_entered p hp := by
    rcases hpath p hp with rfl | hp
    · exact List.mem_append_right _ (List.mem_singleton_self p)
    · exact List.mem_append_left _ (h.path_entered p hp)

/-- A move that enters no node may drop pending visits. -/
theorem keep (h : Entries g s₀ root s entered) (hvisited : ∀ n, t.Visited n ↔ s.Visited n)
    (hpath : ∀ p ∈ t.path, p ∈ s.path) : Entries g s₀ root t entered where
  nodup_entered := h.nodup_entered
  mem_entered n := by rw [hvisited, h.mem_entered]
  visited n hn := (hvisited n).2 (h.visited n hn)
  reached := h.reached
  path_entered p hp := h.path_entered p (hpath p hp)

end Entries

/-! ## Edges that are looked at -/

/-- The edges from some nodes that pending visits have looked at. -/
structure Looks (g : Graph) (s : Visit) (entered : List GroupId) (examined : List Edge) : Prop where
  nodup_examined : examined.Nodup
  mem_examined : ∀ x y, ⟨x, y⟩ ∈ examined ↔ x ∈ entered ∧ g.Adj x y ∧ ¬ s.Pending x y

/-- A visit that looks at an edge has one edge less to look at. -/
theorem pending_advance (hw : s.work = f :: r) (hy : f.successors[f.cursor]? = some y)
    (hpath : s.path.Nodup) (hnodup : f.successors.Nodup) (x z : GroupId) :
    { s with work := { f with cursor := f.cursor + 1 } :: r }.Pending x z ↔
      s.Pending x z ∧ ¬ (x = f.node ∧ z = y) := by
  have hdrop : f.successors.drop f.cursor = y :: f.successors.drop (f.cursor + 1) := by
    obtain ⟨hc, rfl⟩ := List.getElem?_eq_some_iff.1 hy
    exact List.drop_eq_getElem_cons hc
  have hy' : y ∉ f.successors.drop (f.cursor + 1) := by
    have hsub := hnodup.sublist (List.drop_sublist f.cursor f.successors)
    rw [hdrop] at hsub
    exact (List.nodup_cons.1 hsub).1
  have hrest : ∀ e ∈ r, e.node ≠ f.node := fun e he heq => by
    rw [Inv.path_of_work hw] at hpath
    exact (List.nodup_cons.1 hpath).1 (heq ▸ List.mem_map_of_mem he)
  simp only [Pending, hw, List.exists_mem_cons_iff]
  constructor
  · rintro (⟨rfl, hz⟩ | ⟨e, he, rfl, hz⟩)
    · refine ⟨.inl ⟨rfl, hdrop ▸ List.mem_cons_of_mem y hz⟩, ?_⟩
      rintro ⟨-, rfl⟩
      exact hy' hz
    · exact ⟨.inr ⟨e, he, rfl, hz⟩, fun heq => hrest e he heq.1⟩
  · rintro ⟨⟨rfl, hz⟩ | ⟨e, he, rfl, hz⟩, hne⟩
    · rw [hdrop, List.mem_cons] at hz
      exact .inl ⟨rfl, hz.resolve_left fun heq => hne ⟨rfl, heq⟩⟩
    · exact .inr ⟨e, he, rfl, hz⟩

/-- A visit that has looked at all its edges has none to look at. -/
theorem pending_close (hw : s.work = f :: r) (hf : f.successors[f.cursor]? = none)
    (x z : GroupId) : { s with work := r }.Pending x z ↔ s.Pending x z :=
  ⟨fun ⟨e, he, hx, hz⟩ => ⟨e, hw ▸ List.mem_cons_of_mem f he, hx, hz⟩, Inv.pending_rest hw hf⟩

namespace Looks

theorem start (g : Graph) (s : Visit) (root : GroupId) : Looks g (s.enter g root) [root] [] where
  nodup_examined := List.nodup_nil
  mem_examined x y := by
    refine iff_of_false List.not_mem_nil fun ⟨hx, hxy, hpending⟩ => hpending ?_
    rw [List.mem_singleton.1 hx] at hxy ⊢
    exact ⟨_, List.mem_cons_self, rfl, mem_successors.2 hxy⟩

theorem of_pending (h : Looks g s entered examined)
    (hpending : ∀ x z, t.Pending x z ↔ s.Pending x z) : Looks g t entered examined where
  nodup_examined := h.nodup_examined
  mem_examined x y := by rw [h.mem_examined, hpending]

/-- The latest visit may look at its next edge. -/
theorem advance (h : Looks g s entered examined) (hw : s.work = f :: r)
    (hy : f.successors[f.cursor]? = some y) (hpath : s.path.Nodup) (hnodup : f.successors.Nodup)
    (hf : f.node ∈ entered) (hadj : g.Adj f.node y) :
    Looks g { s with work := { f with cursor := f.cursor + 1 } :: r } entered
      (examined ++ [⟨f.node, y⟩]) where
  nodup_examined := by
    -- what is looked at was pending, so it has not been looked at
    have hpending : s.Pending f.node y := by
      obtain ⟨hc, rfl⟩ := List.getElem?_eq_some_iff.1 hy
      refine ⟨f, hw ▸ List.mem_cons_self, rfl, ?_⟩
      rw [List.drop_eq_getElem_cons hc]
      exact List.mem_cons_self
    refine List.nodup_append.2 ⟨h.nodup_examined, List.nodup_singleton _, ?_⟩
    rintro e he _ he' rfl
    rw [List.mem_singleton.1 he', h.mem_examined] at he
    exact he.2.2 hpending
  mem_examined x z := by
    rw [List.mem_append, List.mem_singleton, Edge.mk.injEq, h.mem_examined,
      pending_advance hw hy hpath hnodup, not_and_not_right]
    constructor
    · rintro (⟨hx, hxz, hz⟩ | ⟨rfl, rfl⟩)
      · exact ⟨hx, hxz, fun hp => absurd hp hz⟩
      · exact ⟨hf, hadj, fun _ => ⟨rfl, rfl⟩⟩
    · rintro ⟨hx, hxz, hz⟩
      by_cases hp : s.Pending x z
      · exact .inr (hz hp)
      · exact .inl ⟨hx, hxz, hp⟩

/-- All edges of a node that is entered are pending. -/
theorem enter (h : Looks g s entered examined) (hy : y ∉ entered)
    (hpending : ∀ x z, t.Pending x z ↔ x = y ∧ g.Adj y z ∨ s.Pending x z) :
    Looks g t (entered ++ [y]) examined where
  nodup_examined := h.nodup_examined
  mem_examined x z := by
    rw [h.mem_examined, hpending, List.mem_append, List.mem_singleton]
    by_cases hx : x = y
    · subst hx
      refine iff_of_false (fun hxz => hy hxz.1) fun hxz => hxz.2.2 (.inl ⟨rfl, hxz.2.1⟩)
    · simp only [hx, or_false, false_and, false_or]

end Looks

/-! ## Moves -/

/-- What has happened in `k` moves since a root was entered in the state `s₀`. -/
structure Logged (g : Graph) (s₀ : Visit) (root : GroupId) (s : Visit) (entered : List GroupId)
    (examined : List Edge) (k : Nat) : Prop extends
    Entries g s₀ root s entered, Looks g s entered examined where
  moves : k + s.work.length = entered.length + examined.length

namespace Logged

theorem start (g : Graph) (hwork : s.work = []) (hnew : ¬ s.Visited root) :
    Logged g s root (s.enter g root) [root] [] 0 where
  toEntries := .start g hwork hnew
  toLooks := .start g s root
  moves := by rw [Visit.enter, hwork]; rfl

/-- A move adds what it enters and what it looks at. -/
theorem shift (h : Logged g s₀ root s entered examined k) (htrail : Trail g root s)
    (hpath : s.path.Nodup) (hw : s.work = f :: r) (m : Shift g s f r t) :
    Logged g s₀ root t (entered ++ s.entered?.toList) (examined ++ s.edge?.toList) (k + 1) := by
  have hf : f.node ∈ entered := h.path_entered _ (Inv.top_mem_path hw)
  have hnodup : f.successors.Nodup := by
    rw [(htrail.cursor_le f (hw ▸ List.mem_cons_self)).1]
    exact nodup_successors g f.node
  have hlooks : ∀ {y}, f.successors[f.cursor]? = some y →
      Looks g { s with work := { f with cursor := f.cursor + 1 } :: r } entered
        (examined ++ [⟨f.node, y⟩]) := fun hy =>
    h.advance hw hy hpath hnodup hf (htrail.adj hw hy)
  have hmoves := h.moves
  rw [hw, List.length_cons] at hmoves
  cases m with
  | @opens y hy hn hwork hvisited =>
    have he := edge?_eq_some hw hy
    rw [entered?_eq_some he hn, he, Option.toList_some, Option.toList_some]
    refine ⟨h.snoc hn (htrail.adj hw hy) hvisited fun p hp => ?_, ?_, ?_⟩
    · rw [path, hwork, List.map_cons, List.mem_cons] at hp
      rwa [Inv.path_of_work hw]
    · refine (hlooks hy).enter (fun hmem => hn ((h.mem_entered y).1 hmem).1) fun x z => ?_
      simp only [Pending, hwork, List.exists_mem_cons_iff, List.drop_zero, mem_successors,
        eq_comm (a := y)]
    · simp only [hwork, List.length_cons, List.length_append, List.length_nil]
      omega
  | @passes y hy hv hwork hvisited =>
    have he := edge?_eq_some hw hy
    rw [entered?_eq_none he hv, he, Option.toList_none, Option.toList_some, List.append_nil]
    refine ⟨h.keep hvisited fun p hp => ?_, (hlooks hy).of_pending fun x z => ?_, ?_⟩
    · rw [path, hwork] at hp
      rwa [Inv.path_of_work hw]
    · rw [Pending, Pending, hwork]
    · simp only [hwork, List.length_cons, List.length_append, List.length_nil]
      omega
  | closes hnone hwork hvisited =>
    have he := edge?_eq_none hw hnone
    rw [entered?, he, Option.bind_none, Option.toList_none, Option.toList_none, List.append_nil,
      List.append_nil]
    refine ⟨h.keep hvisited fun p hp => ?_, h.of_pending fun x z => ?_, ?_⟩
    · rw [path, hwork] at hp
      exact Inv.mem_path_of_mem_rest hw hp
    · rw [← pending_close hw hnone, Pending, Pending, hwork]
    · rw [hwork]
      omega

end Logged

end Layering.Graph.Visit
