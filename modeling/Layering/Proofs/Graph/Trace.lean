import Layering.Graph.Lookup
import Layering.Proofs.Graph.Component
import Layering.Proofs.Graph.Search

/-!
# Moves of a visit

What the moves of the search for components do to the pending visits and to the nodes that have
been visited (`Visit.Shift`). From this it follows, move by move,

* that the pending visits are a path from the root (`Visit.Trail`);
* that all numbers and low-links are there that are looked up (`Visit.LowBounded`,
  `Visit.step?_eq`).
-/

namespace Layering.Graph.Visit

variable {g : Graph} {s t : Visit} {root n x y : GroupId} {f : Frame} {r : List Frame}

/-! ## What a move does -/

/-- What a move does to the pending visits, of which `f` is the latest, and to the nodes that have
been visited. -/
inductive Shift (g : Graph) (s : Visit) (f : Frame) (r : List Frame) (t : Visit) : Prop
  /-- The next edge leads to a new node, whose visit is opened. -/
  | opens {y : GroupId} (hy : f.successors[f.cursor]? = some y) (hn : ¬ s.Visited y)
    (hwork : t.work = ⟨y, g.successors y, 0⟩ :: { f with cursor := f.cursor + 1 } :: r)
    (hvisited : ∀ x, t.Visited x ↔ x = y ∨ s.Visited x)
  /-- The next edge leads to a node that has been visited. -/
  | passes {y : GroupId} (hy : f.successors[f.cursor]? = some y) (hv : s.Visited y)
    (hwork : t.work = { f with cursor := f.cursor + 1 } :: r)
    (hvisited : ∀ x, t.Visited x ↔ s.Visited x)
  /-- There is no next edge, and the visit is closed. -/
  | closes (hf : f.successors[f.cursor]? = none) (hwork : t.work = r)
    (hvisited : ∀ x, t.Visited x ↔ s.Visited x)

theorem Move.shift (m : Move g s f r t) : Shift g s f r t := by
  cases m with
  | enter hy hn => exact .opens hy hn rfl fun x => visited_enter (g := g)
  | lower hy hv hon => exact .passes hy hv rfl fun _ => Iff.rfl
  | skip hy hv hon => exact .passes hy hv rfl fun _ => Iff.rfl
  | bottom hf hr =>
    refine .closes hf ?_ fun x => ?_
    · rw [work_close, hr]
    · rw [Visited, indices_close, Visited]
  | pass hf hr =>
    refine .closes hf ?_ fun x => ?_
    · show (close _ _).work = r
      rw [work_close, hr]
    · rw [Visited, indices_lower, indices_close, Visited]

/-! ## Low-links -/

/-- Each node that has been visited has a low-link, which is not greater than its number. -/
def LowBounded (s : Visit) : Prop :=
  ∀ n i, s.indices.get? n = some i → ∃ l, s.lowlinks.get? n = some l ∧ l ≤ i

namespace LowBounded

theorem initial : LowBounded initial := nofun

theorem enter (h : LowBounded s) (g : Graph) (n : GroupId) : LowBounded (s.enter g n) := by
  intro m i hm
  simp only [Visit.enter, OrdMap.get?_insert] at hm ⊢
  split at hm
  · next hmn =>
    rw [if_pos hmn]
    exact ⟨s.index, rfl, (Option.some.inj hm).le⟩
  · next hmn =>
    rw [if_neg hmn]
    exact h m i hm

theorem lower (h : LowBounded s) (n : GroupId) (k : Nat) : LowBounded (s.lower n k) := by
  intro m i hm
  obtain ⟨l, hl, hle⟩ := h m i hm
  simp only [Visit.lower, OrdMap.get?_insert]
  split
  · next hmn =>
    have hlow : s.low n = l := by rw [low, ← hmn, hl, Option.getD_some]
    exact ⟨_, rfl, hlow ▸ (Nat.min_le_left _ _).trans hle⟩
  · exact ⟨l, hl, hle⟩

theorem close (h : LowBounded s) (n : GroupId) : LowBounded (s.close n) := by
  rw [Visit.close]
  split <;> exact h

theorem move (h : LowBounded s) (m : Move g s f r t) : LowBounded t := by
  cases m with
  | @enter y hy hn => exact h.enter g y
  | @lower y hy hv hon => exact h.lower f.node (s.num y)
  | skip hy hv hon => exact h
  | bottom hf hr => exact close (s := { s with work := [] }) h f.node
  | @pass q u hf hr =>
    exact (close (s := { s with work := q :: u }) h f.node).lower q.node (s.low f.node)

/-- The low-link of a visited node is there. -/
theorem get?_eq (h : LowBounded s) (hn : s.Visited n) : s.lowlinks.get? n = some (s.low n) := by
  obtain ⟨i, hi⟩ := Option.isSome_iff_exists.1 hn
  obtain ⟨l, hl, -⟩ := h n i hi
  rw [low, hl, Option.getD_some]

end LowBounded

/-! ## Look-ups -/

theorem popTo_eq (n : GroupId) (l : List GroupId) (on : OrdSet GroupId) (taken : List GroupId) :
    popTo n l on taken =
      (l.drop (upTo n l).length, (upTo n l).foldl OrdSet.erase on, taken ++ upTo n l) := by
  induction l generalizing on taken with
  | nil => simp [popTo, upTo]
  | cons m l ih =>
    rw [popTo, upTo]
    split
    · rfl
    · simp [ih]

theorem lower?_eq (h : LowBounded s) (hn : s.Visited n) (k : Nat) :
    s.lower? n k = some (s.lower n k) := by
  rw [lower?, h.get?_eq hn]
  rfl

theorem close?_eq (h : LowBounded s) (hn : s.Visited n) : s.close? n = some (s.close n) := by
  obtain ⟨i, hi⟩ := Option.isSome_iff_exists.1 hn
  simp only [close?, close, h.get?_eq hn, hi, popTo_eq, List.nil_append, Option.some_inj,
    Option.bind_eq_bind, Option.bind_some]
  split <;> rfl

/-- Nothing is missing that a move looks up. -/
theorem step?_eq (h : LowBounded s) (hwork : ∀ f ∈ s.work, s.Visited f.node) :
    s.step? g = some (s.step g) := by
  cases hw : s.work with
  | nil => simp only [step?, step, hw]
  | cons f r =>
    have hf : s.Visited f.node := hwork f (by simp [hw])
    simp only [step?, step, hw]
    cases hy : f.successors[f.cursor]? with
    | some y =>
      simp only
      cases s.indices.get? y with
      | none => rfl
      | some k =>
        simp only
        split
        · exact lower?_eq (s := { s with work := { f with cursor := f.cursor + 1 } :: r }) h hf k
        · rfl
    | none =>
      have hclose := close?_eq (s := { s with work := r }) h hf
      have hlow := LowBounded.close (s := { s with work := r }) h f.node
      have hvisited : ∀ {x}, s.Visited x → (close { s with work := r } f.node).Visited x :=
        fun hx => by rwa [Visited, indices_close]
      simp only [hclose, Option.bind_eq_bind, Option.bind_some]
      cases r with
      | nil => rfl
      | cons p u =>
        have hp : s.Visited p.node := hwork p (by simp [hw])
        simp only [hlow.get?_eq (hvisited hf), Option.bind_some]
        exact lower?_eq hlow (hvisited hp) _

/-! ## The path of the pending visits -/

/-- The pending visits are a path from the root, and none has looked at more edges than there
are. -/
structure Trail (g : Graph) (root : GroupId) (s : Visit) : Prop where
  chain : s.path.reverse.IsChain g.Adj
  from_root : ∀ n ∈ s.path.getLast?, n = root
  cursor_le : ∀ f ∈ s.work, f.successors = g.successors f.node ∧ f.cursor ≤ f.successors.length

namespace Trail

theorem enter (g : Graph) (hwork : s.work = []) (root : GroupId) :
    Trail g root (s.enter g root) := by
  have hpath : (s.enter g root).path = [root] := by rw [path, Visit.enter, hwork]; rfl
  refine ⟨?_, fun n hn => ?_, fun f hf => ?_⟩
  · rw [hpath]
    exact .singleton root
  · rw [hpath] at hn
    exact (Option.some.inj hn).symm
  · rw [Visit.enter, hwork] at hf
    obtain rfl := List.mem_singleton.1 hf
    exact ⟨rfl, Nat.zero_le _⟩

/-- The edge that is looked at next leaves the latest visit. -/
theorem adj (h : Trail g root s) (hw : s.work = f :: r) (hy : f.successors[f.cursor]? = some y) :
    g.Adj f.node y := by
  have hf := (h.cursor_le f (hw ▸ List.mem_cons_self)).1
  rw [hf] at hy
  exact mem_successors.1 (List.mem_of_getElem? hy)

/-- There is a path from the root to the latest visit. -/
theorem leads (h : Trail g root s) (hw : s.work = f :: r) :
    Leads g.Adj root f.node s.path.reverse := by
  have hpath : s.path = f.node :: r.map Frame.node := Inv.path_of_work hw
  obtain ⟨n, hn⟩ : ∃ n, s.path.getLast? = some n := by rw [hpath]; simp [List.getLast?_cons]
  refine ⟨?_, ?_, h.chain⟩
  · rw [List.head?_reverse, hn, h.from_root n hn]
  · rw [List.getLast?_reverse, hpath, List.head?_cons]

theorem cursor_le_cons (h : Trail g root s) (hw : s.work = f :: r)
    (hy : f.successors[f.cursor]? = some y) :
    ∀ e ∈ { f with cursor := f.cursor + 1 } :: r,
      e.successors = g.successors e.node ∧ e.cursor ≤ e.successors.length := by
  rw [List.forall_mem_cons]
  refine ⟨⟨(h.cursor_le f (hw ▸ List.mem_cons_self)).1, ?_⟩, fun e he => ?_⟩
  · exact (List.getElem?_eq_some_iff.1 hy).1
  · exact h.cursor_le e (hw ▸ List.mem_cons_of_mem f he)

theorem shift (h : Trail g root s) (hw : s.work = f :: r) (m : Shift g s f r t) :
    Trail g root t := by
  have hpath : s.path = f.node :: r.map Frame.node := Inv.path_of_work hw
  cases m with
  | @opens y hy hn hwork hvisited =>
    have ht : t.path = y :: s.path := by rw [hpath, path, hwork]; rfl
    refine ⟨?_, fun n hn => ?_, ?_⟩
    · rw [ht, List.reverse_cons]
      exact ((h.leads hw).snoc (h.adj hw hy)).chain
    · rw [ht, hpath, List.getLast?_cons_cons, ← hpath] at hn
      exact h.from_root n hn
    · rw [hwork, List.forall_mem_cons]
      exact ⟨⟨rfl, Nat.zero_le _⟩, h.cursor_le_cons hw hy⟩
  | passes hy hv hwork hvisited =>
    have ht : t.path = s.path := by rw [hpath, path, hwork]; rfl
    exact ⟨ht ▸ h.chain, ht ▸ h.from_root, hwork ▸ h.cursor_le_cons hw hy⟩
  | closes hf hwork hvisited =>
    have ht : s.path = f.node :: t.path := by rw [hpath, path, hwork]
    refine ⟨?_, fun n hn => h.from_root n ?_, fun e he => ?_⟩
    · have hchain := h.chain
      rw [ht, List.reverse_cons] at hchain
      exact hchain.left_of_append
    · rw [ht, List.getLast?_cons, Option.mem_def.1 hn]
      rfl
    · exact h.cursor_le e (hw ▸ List.mem_cons_of_mem f (hwork ▸ he))

end Trail

end Layering.Graph.Visit
