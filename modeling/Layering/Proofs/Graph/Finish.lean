import Layering.Proofs.Graph.LowLink

/-!
# Closing visits

When the latest visit has looked at all its edges, its low-link tells whether it
is the first of its component. If so, the component is what stands above it on
the stack (`Visit.Inv.finish`); if not, the visit below takes over its low-link
(`Visit.Inv.leave`). With this, every move of the search keeps the invariant
(`Visit.Inv.move`).
-/

namespace Layering.Graph.Visit

variable {g : Graph} {s : Visit} {n p x y : GroupId} {f : Frame} {r : List Frame}

/-! ## The top of a stack -/

theorem upTo_append_drop (n : GroupId) (l : List GroupId) :
    upTo n l ++ l.drop (upTo n l).length = l := by
  induction l with
  | nil => rfl
  | cons m l ih =>
    rw [upTo]
    split
    · rfl
    · simpa using ih

/-- Down to a node of a falling stack stand the nodes that are not less. -/
theorem mem_upTo {f : GroupId → Nat} {l : List GroupId} (hl : l.Pairwise fun a b => f b < f a)
    (hn : n ∈ l) : x ∈ upTo n l ↔ x ∈ l ∧ f n ≤ f x := by
  induction l with
  | nil => cases hn
  | cons m l ih =>
    obtain ⟨hm, hl⟩ := List.pairwise_cons.1 hl
    rw [upTo]
    split
    · next h =>
      subst h
      rw [List.mem_singleton, List.mem_cons]
      constructor
      · rintro rfl
        exact ⟨.inl rfl, Nat.le_refl _⟩
      · rintro ⟨rfl | hx, hle⟩
        · rfl
        · exact absurd (hm x hx) (Nat.not_lt.2 hle)
    · next h =>
      have hn' : n ∈ l := (List.mem_cons.1 hn).resolve_left (Ne.symm h)
      rw [List.mem_cons, List.mem_cons, ih hl hn', or_and_right]
      refine or_congr_left ⟨fun e => ⟨e, e ▸ (hm n hn').le⟩, And.left⟩

/-- Below a node of a falling stack stand the nodes that are less. -/
theorem mem_drop_upTo {f : GroupId → Nat} {l : List GroupId}
    (hl : l.Pairwise fun a b => f b < f a) (hn : n ∈ l) :
    x ∈ l.drop (upTo n l).length ↔ x ∈ l ∧ f x < f n := by
  have happ := upTo_append_drop n l
  have hx : x ∈ l ↔ x ∈ upTo n l ∨ x ∈ l.drop (upTo n l).length := by
    rw [← List.mem_append, happ]
  have hd : ∀ a ∈ upTo n l, ∀ b ∈ l.drop (upTo n l).length, f b < f a := by
    rw [← happ] at hl
    exact (List.pairwise_append.1 hl).2.2
  constructor
  · intro h
    exact ⟨hx.2 (.inr h), hd n ((mem_upTo hl hn).2 ⟨hn, Nat.le_refl _⟩) x h⟩
  · rintro ⟨h, hlt⟩
    refine (hx.1 h).resolve_left fun hu => ?_
    have := ((mem_upTo hl hn).1 hu).2
    omega

theorem mem_foldl_erase {l : List GroupId} {t : OrdSet GroupId} :
    x ∈ l.foldl OrdSet.erase t ↔ x ∈ t ∧ x ∉ l := by
  induction l generalizing t with
  | nil => simp
  | cons m l ih =>
    rw [List.foldl_cons, ih, OrdSet.mem_erase, List.mem_cons, not_or, and_assoc]

theorem work_close (s : Visit) (n : GroupId) : (s.close n).work = s.work := by
  rw [close]
  split <;> rfl

theorem indices_close (s : Visit) (n : GroupId) : (s.close n).indices = s.indices := by
  rw [close]
  split <;> rfl

theorem low_close (s : Visit) (n x : GroupId) : (s.close n).low x = s.low x := by
  rw [close]
  split <;> rfl

namespace Inv

/-! ## Closing a visit -/

theorem path_of_work (hw : s.work = f :: r) : s.path = f.node :: r.map Frame.node := by
  rw [path, hw, List.map_cons]

/-- The latest pending visit has the greatest number. -/
theorem num_lt_top (h : Inv g s) (hw : s.work = f :: r) (hp : p ∈ r.map Frame.node) :
    s.num p < s.num f.node := by
  have hf := h.path_falling
  rw [path_of_work hw] at hf
  exact (List.pairwise_cons.1 hf).1 p hp

theorem top_mem_path (hw : s.work = f :: r) : f.node ∈ s.path := by
  rw [path_of_work hw]
  exact List.mem_cons_self ..

theorem mem_path_of_mem_rest (hw : s.work = f :: r) (hp : p ∈ r.map Frame.node) : p ∈ s.path := by
  rw [path_of_work hw]
  exact List.mem_cons_of_mem _ hp

theorem mem_rest_of_mem_path (hw : s.work = f :: r) (hp : p ∈ s.path) (hne : p ≠ f.node) :
    p ∈ r.map Frame.node := by
  rw [path_of_work hw] at hp
  exact (List.mem_cons.1 hp).resolve_left hne

/-- Above the latest pending visit no low-link is less than its own. -/
theorem low_top_le (h : Inv g s) (hw : s.work = f :: r) (hx : x ∈ s.stack)
    (hle : s.num f.node ≤ s.num x) : s.low f.node ≤ s.low x := by
  obtain ⟨q, hq, hnum, hlow⟩ := h.low_path f.node (top_mem_path hw) x hx hle
  by_cases hqf : q = f.node
  · rwa [hqf] at hlow
  · have := h.num_lt_top hw (mem_rest_of_mem_path hw hq hqf)
    omega

/-- A visit that has looked at all its edges leaves the others pending. -/
theorem pending_rest (hw : s.work = f :: r) (hf : f.successors[f.cursor]? = none)
    (hxy : s.Pending x y) : ∃ e ∈ r, e.node = x ∧ y ∈ e.successors.drop e.cursor := by
  obtain ⟨e, he, hex, hey⟩ := hxy
  rw [hw] at he
  rcases List.mem_cons.1 he with rfl | he
  · rw [List.drop_eq_nil_of_le (List.getElem?_eq_none_iff.1 hf)] at hey
    cases hey
  · exact ⟨e, he, hex, hey⟩

/-- When the latest visit has looked at all its edges, the nodes above it have
edges only to each other and to finished nodes, or have low-links less than its
number. -/
theorem adj_above_top (h : Inv g s) (hw : s.work = f :: r)
    (hf : f.successors[f.cursor]? = none) (hx : x ∈ s.stack) (hle : s.num f.node ≤ s.num x)
    (hxy : g.Adj x y) : y ∈ s.components.flatten ∨ (y ∈ s.stack ∧ s.low f.node ≤ s.num y) := by
  rcases h.explored x hx y hxy with hp | ⟨hv, hl⟩
  · obtain ⟨e, he, rfl, -⟩ := pending_rest hw hf hp
    have := h.num_lt_top hw (List.mem_map_of_mem he)
    omega
  · rcases (h.visited_iff y).1 hv with hy | hy
    · exact .inr ⟨hy, (h.low_top_le hw hx hle).trans (hl hy)⟩
    · exact .inl hy

/-- A visit whose low-link is less than its number may be closed once the visit
below it has a low-link that is not greater. -/
theorem leave (h : Inv g s) (hw : s.work = f :: r) (hf : f.successors[f.cursor]? = none)
    (hlt : s.low f.node < s.num f.node) {q : GroupId} (hq : q ∈ r.map Frame.node)
    (hmax : ∀ p ∈ r.map Frame.node, s.num p ≤ s.num q) (hlow : s.low q ≤ s.low f.node) :
    Inv g { s with work := r } := by
  have hpath : ∀ {p}, p ∈ r.map Frame.node → p ∈ s.path := mem_path_of_mem_rest hw
  have hsub := h.path_sublist
  rw [path_of_work hw] at hsub
  exact {
    toNumbered := { h.toNumbered with
      path_sublist := (List.sublist_cons_self ..).trans hsub
      successors_eq := fun e he => h.successors_eq e (hw ▸ List.mem_cons_of_mem _ he) }
    toLinked := { h.toLinked with
      reach := fun p hp => h.reach p (hpath hp)
      rooted := fun x hx => by
        obtain ⟨p, hp, hle⟩ := h.rooted x hx
        by_cases hpf : p = f.node
        · subst hpf
          exact ⟨q, hq, (h.num_lt_top hw hq).le.trans hle⟩
        · exact ⟨p, mem_rest_of_mem_path hw hp hpf, hle⟩
      low_lt := fun x hx hp => by
        by_cases hxf : x = f.node
        · rwa [hxf]
        · exact h.low_lt x hx fun hm => hp (mem_rest_of_mem_path hw hm hxf)
      low_path := fun p hp x hx hle => by
        obtain ⟨v, hv, hpv, hvx⟩ := h.low_path p (hpath hp) x hx hle
        by_cases hvf : v = f.node
        · subst hvf
          exact ⟨q, hq, hmax p hp, hlow.trans hvx⟩
        · exact ⟨v, mem_rest_of_mem_path hw hv hvf, hpv, hvx⟩
      explored := fun x hx y hxy =>
        (h.explored x hx y hxy).imp (pending_rest hw hf) id }
    toFinished := { h.toFinished with } }

/-! ## Finishing a component -/

/-- The first node of a component is reached from all nodes above it. -/
theorem reach_root (h : Inv g s) (hw : s.work = f :: r) (hroot : s.low f.node = s.num f.node)
    (hx : x ∈ s.stack) (hle : s.num f.node ≤ s.num x) : g.Reach x f.node := by
  -- a low-link leads from a closed visit to a smaller number that is still not below `f`
  induction hk : s.num x using Nat.strong_induction_on generalizing x with
  | _ k ih =>
    subst hk
    by_cases hxf : x = f.node
    · rw [hxf]
    · have hp : x ∉ s.path := fun hm => by
        have := h.num_lt_top hw (mem_rest_of_mem_path hw hm hxf)
        omega
      obtain ⟨y, hy, hyx, hxy⟩ := h.low_reach x hx
      have hlt := h.low_lt x hx hp
      have hfx := h.low_top_le hw hx hle
      exact hxy.trans (ih (s.num y) (by omega) hy (by omega) rfl)

theorem lowlinks_eq_iff (h : Inv g s) (hx : x ∈ s.stack) :
    s.lowlinks.get? x = s.indices.get? x ↔ s.low x = s.num x := by
  obtain ⟨l, hl⟩ := Option.isSome_iff_exists.1 (h.low_isSome x hx)
  obtain ⟨k, hk⟩ := Option.isSome_iff_exists.1 (h.visited_of_mem_stack hx)
  simp [low, num, hl, hk]

/-- What the stack keeps when the component of `f` is taken off. -/
theorem mem_rest_iff (h : Inv g s) (hw : s.work = f :: r) :
    x ∈ s.stack.drop (upTo f.node s.stack).length ↔ x ∈ s.stack ∧ s.num x < s.num f.node :=
  mem_drop_upTo h.falling (h.mem_stack_of_mem_path (top_mem_path hw))

/-- The component of `f`. -/
theorem mem_component_iff (h : Inv g s) (hw : s.work = f :: r) :
    x ∈ upTo f.node s.stack ↔ x ∈ s.stack ∧ s.num f.node ≤ s.num x :=
  mem_upTo h.falling (h.mem_stack_of_mem_path (top_mem_path hw))

theorem path_sublist_rest (h : Inv g s) (hw : s.work = f :: r) :
    (r.map Frame.node).Sublist (s.stack.drop (upTo f.node s.stack).length) := by
  have hrest : s.stack.filter (fun x => s.num x < s.num f.node) =
      s.stack.drop (upTo f.node s.stack).length := by
    conv_lhs => rw [← upTo_append_drop f.node s.stack]
    rw [List.filter_append, List.filter_eq_nil_iff.2, List.filter_eq_self.2, List.nil_append]
    · intro x hx
      exact decide_eq_true ((h.mem_rest_iff hw).1 hx).2
    · intro x hx
      have := ((h.mem_component_iff hw).1 hx).2
      simpa using this
  have hpath : (r.map Frame.node).filter (fun x => s.num x < s.num f.node) = r.map Frame.node :=
    List.filter_eq_self.2 fun p hp => decide_eq_true (h.num_lt_top hw hp)
  have hsub := h.path_sublist
  rw [path_of_work hw] at hsub
  rw [← hrest, ← hpath]
  exact ((List.sublist_cons_self ..).trans hsub).filter _

/-- The nodes above `f` have edges to each other and to finished nodes only. -/
theorem adj_component (h : Inv g s) (hw : s.work = f :: r) (hf : f.successors[f.cursor]? = none)
    (hroot : s.low f.node = s.num f.node) (hx : x ∈ upTo f.node s.stack) (hxy : g.Adj x y) :
    y ∈ s.components.flatten ∨ y ∈ upTo f.node s.stack := by
  obtain ⟨hx, hle⟩ := (h.mem_component_iff hw).1 hx
  refine (h.adj_above_top hw hf hx hle hxy).imp id fun ⟨hy, hl⟩ => ?_
  exact (h.mem_component_iff hw).2 ⟨hy, hroot ▸ hl⟩

theorem close_eq_of_root (h : Inv g s) (hw : s.work = f :: r)
    (hroot : s.low f.node = s.num f.node) :
    close { s with work := r } f.node =
      { s with
        stack := s.stack.drop (upTo f.node s.stack).length
        onStack := (upTo f.node s.stack).foldl OrdSet.erase s.onStack
        components := s.components ++ [upTo f.node s.stack]
        work := r } := by
  have htop := h.mem_stack_of_mem_path (top_mem_path hw)
  rw [close, if_pos ((h.lowlinks_eq_iff htop).2 hroot)]

theorem close_eq_of_not_root (h : Inv g s) (hw : s.work = f :: r)
    (hroot : s.low f.node ≠ s.num f.node) :
    close { s with work := r } f.node = { s with work := r } := by
  have htop := h.mem_stack_of_mem_path (top_mem_path hw)
  rw [close, if_neg fun e => hroot ((h.lowlinks_eq_iff htop).1 e)]

theorem numbered_finish (h : Inv g s) (hw : s.work = f :: r)
    (hroot : s.low f.node = s.num f.node) :
    Numbered g (close { s with work := r } f.node) := by
  have happ := upTo_append_drop f.node s.stack
  rw [h.close_eq_of_root hw hroot]
  exact { h.toNumbered with
    visited_iff := fun x => by
      refine (h.visited_iff x).trans ?_
      conv_lhs => rw [← happ]
      rw [List.flatten_append, List.flatten_singleton, List.mem_append, List.mem_append, or_assoc,
        or_left_comm, or_comm (a := x ∈ upTo f.node s.stack)]
    nodup := by
      refine (List.Perm.nodup_iff ?_).1 h.nodup
      conv_lhs => rw [← happ]
      rw [List.flatten_append, List.flatten_singleton, List.append_assoc]
      exact List.perm_append_comm.trans (by rw [List.append_assoc])
    onStack_iff := fun x => by
      rw [mem_foldl_erase, h.onStack_iff, h.mem_component_iff hw, h.mem_rest_iff hw, not_and,
        Nat.not_le]
      exact and_congr_right fun hx => ⟨fun hl => hl hx, fun hl _ => hl⟩
    falling := h.falling.sublist (List.drop_sublist ..)
    path_sublist := h.path_sublist_rest hw
    successors_eq := fun e he => h.successors_eq e (hw ▸ List.mem_cons_of_mem _ he) }

theorem linked_finish (h : Inv g s) (hw : s.work = f :: r) (hf : f.successors[f.cursor]? = none)
    (hroot : s.low f.node = s.num f.node) : Linked g (close { s with work := r } f.node) := by
  have hrest : ∀ {x}, x ∈ s.stack.drop (upTo f.node s.stack).length ↔
      x ∈ s.stack ∧ s.num x < s.num f.node := h.mem_rest_iff hw
  rw [h.close_eq_of_root hw hroot]
  exact {
    reach := fun p hp x hx => h.reach p (mem_path_of_mem_rest hw hp) x (hrest.1 hx).1
    rooted := fun x hx => by
      obtain ⟨hx, hlt⟩ := hrest.1 hx
      obtain ⟨p, hp, hle⟩ := h.rooted x hx
      refine ⟨p, mem_rest_of_mem_path hw hp fun e => ?_, hle⟩
      subst e
      omega
    low_isSome := fun x hx => h.low_isSome x (hrest.1 hx).1
    low_le := fun x hx => h.low_le x (hrest.1 hx).1
    low_lt := fun x hx hp => by
      obtain ⟨hx, hlt⟩ := hrest.1 hx
      refine h.low_lt x hx fun hm => hp (mem_rest_of_mem_path hw hm fun e => ?_)
      subst e
      omega
    low_reach := fun x hx => by
      obtain ⟨hx, hlt⟩ := hrest.1 hx
      obtain ⟨y, hy, hyx, hxy⟩ := h.low_reach x hx
      have := h.low_le x hx
      exact ⟨y, hrest.2 ⟨hy, by omega⟩, hyx, hxy⟩
    low_path := fun p hp x hx hle => by
      obtain ⟨hx, hlt⟩ := hrest.1 hx
      obtain ⟨q, hq, hpq, hqx⟩ := h.low_path p (mem_path_of_mem_rest hw hp) x hx hle
      refine ⟨q, mem_rest_of_mem_path hw hq fun e => ?_, hpq, hqx⟩
      subst e
      have := h.low_le x hx
      omega
    explored := fun x hx y hxy => by
      refine (h.explored x (hrest.1 hx).1 y hxy).imp (pending_rest hw hf) fun ⟨hv, hl⟩ => ?_
      exact ⟨hv, fun hy => hl (hrest.1 hy).1⟩ }

theorem finished_finish (h : Inv g s) (hw : s.work = f :: r) (hf : f.successors[f.cursor]? = none)
    (hroot : s.low f.node = s.num f.node) : Finished g (close { s with work := r } f.node) := by
  have hcomp : ∀ {x}, x ∈ upTo f.node s.stack ↔ x ∈ s.stack ∧ s.num f.node ≤ s.num x :=
    h.mem_component_iff hw
  rw [h.close_eq_of_root hw hroot]
  exact {
    closed := fun x hx y hxy => by
      rw [List.flatten_append, List.flatten_singleton, List.mem_append] at hx ⊢
      exact hx.elim (fun hx => .inl (h.closed x hx y hxy)) fun hx => h.adj_component hw hf hroot hx hxy
    ordered := by
      refine List.pairwise_append.2 ⟨h.ordered, List.pairwise_singleton .., ?_⟩
      rintro c hc d hd x hx y hy hxy
      rw [List.mem_singleton.1 hd] at hy
      have hdone := h.closed x (List.mem_flatten_of_mem hc hx) y hxy
      exact (List.nodup_append.1 h.nodup).2.2 _ (hcomp.1 hy).1 _ hdone rfl
    ne_nil := fun c hc => by
      rcases List.mem_append.1 hc with hc | hc
      · exact h.ne_nil c hc
      · rw [List.mem_singleton.1 hc]
        have htop := h.mem_stack_of_mem_path (top_mem_path hw)
        exact List.ne_nil_of_mem (hcomp.2 ⟨htop, Nat.le_refl _⟩)
    reach_of_mem := fun c hc x hx y hy => by
      rcases List.mem_append.1 hc with hc | hc
      · exact h.reach_of_mem c hc x hx y hy
      · rw [List.mem_singleton.1 hc] at hx hy
        obtain ⟨hx, hlx⟩ := hcomp.1 hx
        obtain ⟨hy, hly⟩ := hcomp.1 hy
        exact (h.reach_root hw hroot hx hlx).trans (h.reach f.node (top_mem_path hw) y hy hly) }

/-- A visit whose low-link is its number may be closed, and its component
finished. -/
theorem finish (h : Inv g s) (hw : s.work = f :: r) (hf : f.successors[f.cursor]? = none)
    (hroot : s.low f.node = s.num f.node) : Inv g (close { s with work := r } f.node) :=
  ⟨h.numbered_finish hw hroot, h.linked_finish hw hf hroot, h.finished_finish hw hf hroot⟩

/-- The latest pending visit takes over the low-link of a closed one. -/
theorem pass (h : Inv g s) {q : Frame} (hw : s.work = f :: q :: r)
    (hf : f.successors[f.cursor]? = none) :
    Inv g ((close { s with work := q :: r } f.node).lower q.node (s.low f.node)) := by
  have hqr : q.node ∈ (q :: r).map Frame.node := List.mem_cons_self ..
  have hq : q.node ∈ s.path := mem_path_of_mem_rest hw hqr
  have htop := h.mem_stack_of_mem_path (top_mem_path hw)
  have hlt : s.num q.node < s.num f.node := h.num_lt_top hw hqr
  by_cases hroot : s.low f.node = s.num f.node
  · -- the low-link of `f` is too great to change anything
    refine (h.finish hw hf hroot).lower ?_ (.inl ?_)
    · rw [path, work_close]
      exact hqr
    · rw [low_close]
      exact (h.low_le _ (h.mem_stack_of_mem_path hq)).trans (hroot ▸ hlt.le)
  · rw [h.close_eq_of_not_root hw hroot]
    obtain ⟨y, hy, hyf, hfy⟩ := h.low_reach _ htop
    have hlow := h.lower (k := s.low f.node) hq
      (.inr ⟨y, hy, hyf, (h.reach _ hq _ htop hlt.le).trans hfy⟩)
    have hne : f.node ≠ q.node := fun e => by
      rw [e] at hlt
      exact lt_irrefl _ hlt
    refine hlow.leave (f := f) (r := q :: r) hw hf ?_ hqr (fun p hp => ?_) ?_
    · exact (low_lower_le _).trans_lt (lt_of_le_of_ne (h.low_le _ htop) hroot)
    · rcases List.mem_cons.1 hp with rfl | hp
      · exact Nat.le_refl _
      · have hfall := h.path_falling
        rw [path_of_work hw] at hfall
        exact ((List.pairwise_cons.1 (List.pairwise_cons.1 hfall).2).1 p hp).le
    · rw [low_lower_of_ne hne, low_lower, if_pos rfl]
      exact Nat.min_le_right _ _

/-- The earliest pending visit is that of the first node of a component. -/
theorem low_eq_num_of_bottom (h : Inv g s) (hw : s.work = [f]) : s.low f.node = s.num f.node := by
  have htop := h.mem_stack_of_mem_path (top_mem_path hw)
  obtain ⟨y, hy, hyf, -⟩ := h.low_reach f.node htop
  obtain ⟨p, hp, hpy⟩ := h.rooted y hy
  have hpf : p = f.node := by simpa [path_of_work hw] using hp
  have := h.low_le f.node htop
  subst hpf
  omega

end Inv

/-! ## One move -/

/-- What a move can do when `f` is the latest pending visit and `r` are the
others. -/
inductive Move (g : Graph) (s : Visit) (f : Frame) (r : List Frame) : Visit → Prop
  /-- The next edge leads to a new node. -/
  | enter {y : GroupId} (hy : f.successors[f.cursor]? = some y) (hn : ¬ s.Visited y) :
    Move g s f r { s.enter g y with
      work := ⟨y, g.successors y, 0⟩ :: { f with cursor := f.cursor + 1 } :: r }
  /-- The next edge leads to a node on the stack. -/
  | lower {y : GroupId} (hy : f.successors[f.cursor]? = some y) (hv : s.Visited y)
    (hon : y ∈ s.onStack) :
    Move g s f r { s.lower f.node (s.num y) with work := { f with cursor := f.cursor + 1 } :: r }
  /-- The next edge leads to a finished component. -/
  | skip {y : GroupId} (hy : f.successors[f.cursor]? = some y) (hv : s.Visited y)
    (hon : y ∉ s.onStack) : Move g s f r { s with work := { f with cursor := f.cursor + 1 } :: r }
  /-- There is no next edge, and `f` was the only visit. -/
  | bottom (hf : f.successors[f.cursor]? = none) (hr : r = []) :
    Move g s f r (close { s with work := [] } f.node)
  /-- There is no next edge, and `q` is the visit below. -/
  | pass {q : Frame} {t : List Frame} (hf : f.successors[f.cursor]? = none) (hr : r = q :: t) :
    Move g s f r ((close { s with work := q :: t } f.node).lower q.node (s.low f.node))

theorem move_step (hw : s.work = f :: r) : Move g s f r (s.step g) := by
  simp only [step, hw]
  cases hy : f.successors[f.cursor]? with
  | some y =>
    simp only
    cases hk : s.indices.get? y with
    | none => exact .enter hy (by simp [Visited, hk])
    | some k =>
      have hv : s.Visited y := by simp [Visited, hk]
      have hnum : k = s.num y := by simp [num, hk]
      simp only
      split
      · next hon =>
        rw [hnum]
        exact .lower hy hv hon
      · next hon => exact .skip hy hv hon
  | none =>
    cases r with
    | nil => exact .bottom hy rfl
    | cons q t =>
      simp only [low_close]
      exact .pass hy rfl

/-- A move keeps the invariant. -/
theorem Inv.move (h : Inv g s) (hw : s.work = f :: r) {t : Visit} (m : Move g s f r t) :
    Inv g t := by
  have htop := h.mem_stack_of_mem_path (top_mem_path hw)
  have hadj : ∀ {y}, f.successors[f.cursor]? = some y → g.Adj f.node y :=
    h.adj_of_getElem? (hw ▸ List.mem_cons_self ..)
  cases m with
  | @enter y hy hn =>
    have hreach : ∀ p ∈ s.path, g.Reach p y := fun p hp => by
      refine (h.reach p hp f.node htop ?_).tail (hadj hy)
      by_cases hpf : p = f.node
      · rw [hpf]
      · exact (h.num_lt_top hw (mem_rest_of_mem_path hw hp hpf)).le
    refine (h.enter hn (hadj hy).mem_nodes.2 hreach).advance (l := [⟨y, g.successors y, 0⟩])
      (congrArg (_ :: ·) hw) hy (visited_enter.2 (.inl rfl)) fun _ => ?_
    have hne : f.node ≠ y := fun e => hn (e ▸ h.visited_of_mem_stack htop)
    rw [low_enter, if_neg hne, num_enter, if_pos rfl]
    exact (h.low_le _ htop).trans (h.num_lt_of_mem_stack htop).le
  | @lower y hy hv hon =>
    have hys : y ∈ s.stack := (h.onStack_iff y).1 hon
    refine (h.lower (top_mem_path hw) (.inr ⟨y, hys, rfl, .single (hadj hy)⟩)).advance
      (l := []) hw hy hv fun _ => ?_
    rw [low_lower, if_pos rfl]
    exact Nat.min_le_right _ _
  | @skip y hy hv hon =>
    exact h.advance (l := []) hw hy hv fun hys => absurd ((h.onStack_iff y).2 hys) hon
  | bottom hf hr =>
    subst hr
    exact h.finish hw hf (h.low_eq_num_of_bottom hw)
  | pass hf hr =>
    subst hr
    exact h.pass hw hf

end Layering.Graph.Visit
