import Layering.Proofs.Graph.Parents
import Mathlib.Data.List.Induction

/-!
# Shortest paths

Walks are compared by their length, and walks of the same length node by node
(`Graph.Sooner`). The trails in the queue of a search ascend in this order, and each is the
first of all walks from the start to its node (`Graph.Ranked`), because a walk that has come
to a node whose trail has not been taken yet is no sooner than the next trail to be taken
(`Graph.Ranked.le_of_not_mem_done`). So the path that is found is the first of all.

* `Graph.noLater_of_path?`: a path that is found is the first of all walks from the start to
  the goal;
* `Graph.path_firstShortest_or_none`: when a path is found, and which.
-/

namespace Layering

instance : StrictOrder (List GroupId) where
  irrefl := List.lt_irrefl
  trans := List.lt_trans
  trichotomy := lt_trichotomy

/-- The last step of a walk. -/
theorem Leads.last_step {r : GroupId → GroupId → Prop} {a b n : GroupId} {p : List GroupId}
    (hp : Leads r a b (p ++ [n])) : n = b ∧ ((p = [] ∧ a = b) ∨ ∃ x, Leads r a x p ∧ r x b) := by
  have hn : n = b := by simpa using hp.last
  subst hn
  refine ⟨rfl, ?_⟩
  rcases List.eq_nil_or_concat' p with rfl | ⟨q, x, rfl⟩
  · exact .inl ⟨rfl, by simpa using hp.head.symm⟩
  · right
    have hchain := List.isChain_append.1 hp.chain
    refine ⟨x, ⟨?_, by simp, hchain.1⟩, hchain.2.2 x (by simp) n (by simp)⟩
    have hhead := hp.head
    rwa [List.head?_append_of_ne_nil _ (by simp)] at hhead

namespace Graph

variable {g : Graph} {start goal a b m n : GroupId} {done seen : List GroupId}
  {queue : List Trail} {t : Trail} {p q r : List GroupId}

/-! ## The order of walks -/

/-- A shorter walk is sooner, and of walks of the same length the one that is less where
they first differ. -/
def Sooner (p q : List GroupId) : Prop := LexLt List.length id p q

theorem Sooner.trans (h : Sooner p q) (h' : Sooner q r) : Sooner p r := LexLt.trans h h'

theorem lt_append_of_lt (hlt : p < q) (h : p.length = q.length) (s t : List GroupId) :
    p ++ s < q ++ t := by
  induction p generalizing q with
  | nil =>
    obtain rfl := List.length_eq_zero_iff.1 h.symm
    exact absurd hlt (List.lt_irrefl [])
  | cons a p ih =>
    cases q with
    | nil => cases h
    | cons b q =>
      rw [List.cons_append, List.cons_append, List.cons_lt_cons_iff]
      rcases List.cons_lt_cons_iff.1 hlt with hab | ⟨hab, hlt⟩
      · exact .inl hab
      · exact .inr ⟨hab, ih hlt (Nat.succ.inj h)⟩

theorem Sooner.concat (h : Sooner p q) (m n : GroupId) : Sooner (p ++ [m]) (q ++ [n]) := by
  rcases h with h | ⟨h, hlt⟩
  · left
    simpa using h
  · right
    exact ⟨by simp [h], lt_append_of_lt hlt h _ _⟩

theorem sooner_concat (p : List GroupId) (n : GroupId) : Sooner p (p ++ [n]) :=
  .inl (by simp)

theorem sooner_concat_of_lt (h : m < n) (p : List GroupId) : Sooner (p ++ [m]) (p ++ [n]) := by
  refine .inr ⟨by simp, ?_⟩
  induction p with
  | nil => exact List.cons_lt_cons_iff.2 (.inl h)
  | cons a p ih => exact List.cons_lt_cons_iff.2 (.inr ⟨rfl, ih⟩)

/-- A walk is another or sooner than it. -/
def NoLater (p q : List GroupId) : Prop := p = q ∨ Sooner p q

theorem NoLater.trans (h : NoLater p q) (h' : NoLater q r) : NoLater p r := by
  rcases h with rfl | h
  · exact h'
  · rcases h' with rfl | h'
    · exact .inr h
    · exact .inr (h.trans h')

theorem NoLater.concat (h : NoLater p q) (n : GroupId) : NoLater (p ++ [n]) (q ++ [n]) := by
  rcases h with rfl | h
  · exact .inl rfl
  · exact .inr (h.concat n n)

/-! ## Searches in order -/

/-- A search whose trails ascend, none of them later than what the others can be extended
to, each of them the first walk to its node. -/
structure Ranked (g : Graph) (start goal : GroupId) (done : List GroupId) (queue : List Trail)
    (seen : List GroupId) : Prop extends Searching g start goal done queue seen where
  ascending : queue.Pairwise fun s t => Sooner s.path t.path
  below : ∀ s ∈ queue, ∀ t ∈ queue, ∀ n, Sooner s.path (t.path ++ [n])
  first : ∀ t ∈ queue, ∀ q, Leads g.Adj start t.last q → NoLater t.path q

namespace Ranked

theorem initial (h : start ∈ g.nodes) : Ranked g start goal [] [⟨start, []⟩] [start] where
  toSearching := .initial h
  ascending := List.pairwise_singleton ..
  below s hs t ht n := by
    rw [List.mem_singleton.1 hs, List.mem_singleton.1 ht]
    exact sooner_concat _ n
  first t ht q hq := by
    obtain rfl := List.mem_singleton.1 ht
    cases q with
    | nil => cases hq.head
    | cons x q =>
      obtain rfl : x = start := by simpa using hq.head
      cases q with
      | nil => exact .inl rfl
      | cons y q => exact .inr (.inl (by simp [Trail.path]))

/-- A walk to a node whose trail has not been taken is no sooner than the next trail. -/
theorem le_of_not_mem_done (h : Ranked g start goal done (t :: queue) seen)
    (hq : Leads g.Adj start n q) (hn : n ∉ done) : NoLater t.path q := by
  induction q using List.reverseRecOn generalizing n with
  | nil => cases hq.head
  | append_singleton q x ih =>
    by_cases hseen : n ∈ seen
    · -- The node has been discovered: its trail is in the queue.
      have hmem : n ∈ (t :: queue).map Trail.last :=
        (List.mem_append.1 (h.seen_perm.mem_iff.1 hseen)).resolve_left hn
      obtain ⟨s, hs, rfl⟩ := List.mem_map.1 hmem
      have hts : NoLater t.path s.path := by
        rcases List.mem_cons.1 hs with rfl | hs
        · exact .inl rfl
        · exact .inr (List.rel_of_pairwise_cons h.ascending hs)
      exact hts.trans (h.first s hs _ hq)
    · -- It has not: then neither has the trail to the node before it been taken.
      obtain ⟨rfl, ⟨-, rfl⟩ | ⟨y, hy, hadj⟩⟩ := hq.last_step
      · exact absurd h.start_mem hseen
      · have hdone : y ∉ done := fun hmem => hseen (h.closed y hmem x hadj)
        exact (ih hy hdone).trans (.inr (sooner_concat q x))

/-- A trail that is extended to a new node is the first walk to it. -/
theorem first_extend (h : Ranked g start goal done (t :: queue) seen) (hn : n ∈ g.fresh seen t)
    (hq : Leads g.Adj start n q) : NoLater (t.path ++ [n]) q := by
  have hnew : n ∉ seen := (mem_fresh.1 hn).2
  rcases List.eq_nil_or_concat' q with rfl | ⟨q, x, rfl⟩
  · cases hq.head
  · obtain ⟨rfl, ⟨-, rfl⟩ | ⟨y, hy, hadj⟩⟩ := hq.last_step
    · exact absurd h.start_mem hnew
    · have hdone : y ∉ done := fun hmem => hnew (h.closed y hmem x hadj)
      exact (h.le_of_not_mem_done hy hdone).concat x

/-- Taking a trail that does not end at the goal. -/
theorem take (h : Ranked g start goal done (t :: queue) seen) (hg : t.last ≠ goal) :
    Ranked g start goal (t.last :: done)
      (queue ++ (g.fresh seen t).map fun n => ⟨n, t.last :: t.before⟩) (g.fresh seen t ++ seen) := by
  have ht : t ∈ t :: queue := List.mem_cons_self ..
  have htail : ∀ {s}, s ∈ queue → s ∈ t :: queue := List.mem_cons_of_mem _
  have hnew : ∀ {s : Trail}, s ∈ queue ++ (g.fresh seen t).map (fun n => ⟨n, t.last :: t.before⟩) →
      s ∈ queue ∨ ∃ n ∈ g.fresh seen t, ⟨n, t.last :: t.before⟩ = s := fun hs =>
    (List.mem_append.1 hs).imp_right List.mem_map.1
  exact {
    toSearching := h.toSearching.take hg
    ascending := by
      refine List.pairwise_append.2 ⟨(List.pairwise_cons.1 h.ascending).2, ?_, ?_⟩
      · rw [List.pairwise_map]
        have hlt : (g.fresh seen t).Pairwise (· < ·) := (g.ascending_successors t.last).filter _
        refine hlt.imp fun {m n} hmn => ?_
        rw [Trail.path_extend, Trail.path_extend]
        exact sooner_concat_of_lt hmn _
      · rintro s hs _ hn
        obtain ⟨n, -, rfl⟩ := List.mem_map.1 hn
        rw [Trail.path_extend]
        exact h.below s (htail hs) t ht n
    below := fun s hs u hu k => by
      rcases hnew hs with hs | ⟨m, -, rfl⟩
      · rcases hnew hu with hu | ⟨n, -, rfl⟩
        · exact h.below s (htail hs) u (htail hu) k
        · rw [Trail.path_extend]
          exact (h.below s (htail hs) t ht n).trans (sooner_concat _ k)
      · rcases hnew hu with hu | ⟨n, -, rfl⟩
        · rw [Trail.path_extend]
          exact (List.rel_of_pairwise_cons h.ascending hu).concat m k
        · rw [Trail.path_extend, Trail.path_extend]
          exact .inl (by simp)
    first := fun u hu q hq => by
      rcases hnew hu with hu | ⟨n, hn, rfl⟩
      · exact h.first u (htail hu) q hq
      · rw [Trail.path_extend]
        exact h.first_extend hn hq }

/-- What a search finds is the first of all walks to the goal. -/
theorem search_first (h : Ranked g start goal done queue seen) {fuel : Nat}
    (hp : g.search goal fuel queue seen = some p) (hq : Leads g.Adj start goal q) :
    NoLater p q := by
  induction fuel generalizing done queue seen with
  | zero => cases hp
  | succ fuel ih =>
    cases queue with
    | nil => cases hp
    | cons t queue =>
      rw [search] at hp
      split at hp
      · next hg =>
        obtain rfl := Option.some_inj.1 hp
        exact h.first t (List.mem_cons_self ..) q (hg ▸ hq)
      · next hg => exact ih (h.take hg) hp

end Ranked

/-- A path that is found is the first of all walks from the start to the goal. -/
theorem noLater_of_path? (h : g.path? a b = some p) (hq : Leads g.Adj a b q) : NoLater p q := by
  obtain ⟨ha, hb⟩ := mem_nodes_of_path? h
  rw [path?, if_pos ⟨ha, hb⟩] at h
  exact (Ranked.initial ha).search_first h hq

/-- A path without repetition that no walk from `a` to `b` is shorter than; of the walks of
its length it is the least. -/
structure FirstShortest (g : Graph) (a b : GroupId) (p : List GroupId) : Prop where
  leads : Leads g.Adj a b p
  nodup : p.Nodup
  shortest : ∀ q, Leads g.Adj a b q → p.length ≤ q.length
  least : ∀ q, Leads g.Adj a b q → q.length = p.length → p ≤ q

theorem firstShortest_of_path? (h : g.path? a b = some p) : FirstShortest g a b p where
  leads := (leads_of_path? h).1
  nodup := (leads_of_path? h).2
  shortest q hq := by
    rcases noLater_of_path? h hq with rfl | hlt | ⟨heq, -⟩
    · exact Nat.le_refl _
    · exact Nat.le_of_lt hlt
    · exact Nat.le_of_eq heq
  least q hq hlength := by
    rcases noLater_of_path? h hq with rfl | hlt | ⟨-, hlt⟩
    · exact le_refl _
    · exact absurd hlength (Nat.ne_of_gt hlt)
    · exact le_of_lt hlt

/-- A path is found unless an end is not a node or the goal cannot be reached from the start.
It is the least of the shortest walks, it depends on the nodes and edges only, and a search
that keeps parents ends with it and misses none of them on the way back. -/
theorem path_firstShortest_or_none (g : Graph) (a b : GroupId) :
    (g.path? a b = none ↔ a ∉ g.nodes ∨ b ∉ g.nodes ∨ ¬ g.Reach a b) ∧
      (∀ p, g.path? a b = some p → FirstShortest g a b p) ∧
      (∀ h : Graph, (∀ n, n ∈ h.nodes ↔ n ∈ g.nodes) → (∀ e, e ∈ h.edges ↔ e ∈ g.edges) →
        h.path? a b = g.path? a b) ∧
      g.pathByParents a b = .ok (g.path? a b) := by
  refine ⟨?_, fun p => firstShortest_of_path?, fun h hn he => ?_, pathByParents_eq g a b⟩
  · by_cases hmem : a ∈ g.nodes ∧ b ∈ g.nodes
    · rw [path?_eq_none_iff hmem.1 hmem.2]
      simp only [hmem.1, hmem.2, not_true_eq_false, false_or]
    · rw [path?, if_neg hmem]
      exact iff_of_true rfl (by tauto)
  · exact path?_congr (OrdSet.ext_mem hn) (OrdSet.ext_mem he) a b

/-- Of two paths of the same length, the one through the lesser node. -/
example : (ofEdges [⟨0, 2⟩, ⟨2, 3⟩, ⟨0, 1⟩, ⟨1, 3⟩]).path? 0 3 = some [0, 1, 3] := by decide

end Graph

end Layering
