import Layering.Proofs.Admission.Candidate
import Layering.Proofs.Graph.Search

/-!
# Offers

What one offer does depends on the edges admitted before it only
(`Admission.rejection?`). For a row of offers:

* `Admission.acyclic_offers`: the admitted graph stays without a cycle;
* `Admission.perm_offers`: each edge is admitted or rejected, once;
* `Admission.adj_iff_of_split`, `Admission.rejected_of_split`: what becomes of an
  edge is decided when it is offered.
-/

namespace Layering

theorem Graph.mem_weightedEdges {g : Graph} {w : WeightedEdge} :
    w ∈ g.weightedEdges ↔ g.weight? w.edge = some w.weight := by
  refine Iff.trans ?_ OrdMap.mem_entries_iff
  constructor
  · intro h
    obtain ⟨e, he, rfl⟩ := List.mem_map.1 h
    exact he
  · intro h
    exact List.mem_map.2 ⟨_, h, rfl⟩

theorem Graph.adj_of_mem_weightedEdges {g : Graph} {w : WeightedEdge} (h : w ∈ g.weightedEdges) :
    g.Adj w.edge.source w.edge.target :=
  adj_iff_exists_weight.2 ⟨w.weight, mem_weightedEdges.1 h⟩

theorem Graph.nodup_edge_weightedEdges (g : Graph) :
    (g.weightedEdges.map WeightedEdge.edge).Nodup := by
  rw [weightedEdges, List.map_map]
  exact g.edges.nodup_toList

theorem Graph.weightedEdges_addEdge {g : Graph} {e : Edge} (hl : e.source ≠ e.target)
    (h : g.weight? e = none) (w : Nat) :
    (g.addEdge e w).weightedEdges.Perm (⟨e, w⟩ :: g.weightedEdges) := by
  have hk : e ∉ g.edges := by
    rw [Graph.mem_edges, h]
    exact Bool.false_ne_true
  have hp := (OrdMap.perm_entries_alter hk fun v => v.getD 0 + w).map
    fun e => (⟨e.1, e.2⟩ : WeightedEdge)
  rw [List.map_cons, Option.getD_none, Nat.zero_add] at hp
  rwa [Graph.addEdge, dif_neg hl]

/-- The edge with its weight, without the reason. -/
def RejectedEdge.weighted (r : RejectedEdge) : WeightedEdge := ⟨r.edge, r.weight⟩

theorem RejectedEdge.isCycleAvoidance_iff {r : RejectedEdge} :
    r.isCycleAvoidance ↔ ∃ path, r.reason = .cycleAvoidance path := by
  rw [isCycleAvoidance]
  cases r.reason <;> simp

namespace Admission

/-- The edge with its weight, without the layers. -/
def Candidate.weighted (c : Candidate) : WeightedEdge := ⟨c.edge, c.weight⟩

variable {policy : LayerPolicy} {a : Admission} {c : Candidate} {cs pre post : List Candidate}
  {groups : List Group} {x y : GroupId}

/-! ## One offer -/

/-- Why an edge is rejected once the edges of `g` have been admitted, if it is. -/
def rejection? (policy : LayerPolicy) (g : Graph) (c : Candidate) : Option RejectReason :=
  if policy.isLegal c.sourceLayer c.targetLayer then
    (g.path? c.edge.target c.edge.source).map .cycleAvoidance
  else some (.layerIllegal c.sourceLayer c.targetLayer)

theorem offer_of_some {r : RejectReason} (h : rejection? policy a.admitted c = some r) :
    offer policy a c = { a with rejected := a.rejected ++ [⟨c.edge, c.weight, r⟩] } := by
  rw [rejection?] at h
  rw [offer]
  split at h
  · next hl =>
    obtain ⟨p, hp, rfl⟩ := Option.map_eq_some_iff.1 h
    rw [if_pos hl, hp]
  · next hl =>
    rw [if_neg hl, Option.some_inj.1 h]

theorem offer_of_none (h : rejection? policy a.admitted c = none) :
    offer policy a c = { a with admitted := a.admitted.addEdge c.edge c.weight } := by
  rw [rejection?] at h
  rw [offer]
  split at h
  · next hl => rw [if_pos hl, Option.map_eq_none_iff.1 h]
  · cases h

/-- An edge is admitted if it is legal and no path of admitted edges leads from
its target to its source. -/
theorem rejection?_eq_none_iff {g : Graph} (hs : c.edge.source ∈ g.nodes)
    (ht : c.edge.target ∈ g.nodes) : rejection? policy g c = none ↔
      policy.isLegal c.sourceLayer c.targetLayer ∧ ¬ g.Reach c.edge.target c.edge.source := by
  rw [rejection?]
  split
  · next hl => simp [hl, Graph.path?_eq_none_iff ht hs]
  · next hl => simp [hl]

theorem adj_offer_of_adj (h : a.admitted.Adj x y) (c : Candidate) :
    (offer policy a c).admitted.Adj x y := by
  cases hr : rejection? policy a.admitted c with
  | some r => rwa [offer_of_some hr]
  | none =>
    rw [offer_of_none hr]
    exact h.addEdge _ _

theorem adj_of_adj_offer (hl : c.edge.source ≠ c.edge.target)
    (h : (offer policy a c).admitted.Adj x y) :
    a.admitted.Adj x y ∨ (⟨x, y⟩ = c.edge ∧ rejection? policy a.admitted c = none) := by
  cases hr : rejection? policy a.admitted c with
  | some r =>
    rw [offer_of_some hr] at h
    exact .inl h
  | none =>
    rw [offer_of_none hr] at h
    exact ((Graph.adj_addEdge hl).1 h).imp id fun e => ⟨e, rfl⟩

theorem mem_nodes_offer (h : x ∈ a.admitted.nodes) (c : Candidate) :
    x ∈ (offer policy a c).admitted.nodes := by
  cases hr : rejection? policy a.admitted c with
  | some r => rwa [offer_of_some hr]
  | none =>
    rw [offer_of_none hr]
    exact Graph.mem_nodes_addEdge_of_mem h _ _

theorem mem_nodes_offer_iff (hs : c.edge.source ∈ a.admitted.nodes)
    (ht : c.edge.target ∈ a.admitted.nodes) :
    x ∈ (offer policy a c).admitted.nodes ↔ x ∈ a.admitted.nodes := by
  refine ⟨fun h => ?_, fun h => mem_nodes_offer h c⟩
  cases hr : rejection? policy a.admitted c with
  | some r => rwa [offer_of_some hr] at h
  | none =>
    rw [offer_of_none hr] at h
    by_cases hl : c.edge.source = c.edge.target
    · rwa [Graph.addEdge_loop _ _ hl] at h
    · rcases (Graph.mem_nodes_addEdge hl).1 h with rfl | rfl | h
      · exact ht
      · exact hs
      · exact h

theorem acyclic_offer (h : a.admitted.Acyclic) (hs : c.edge.source ∈ a.admitted.nodes)
    (ht : c.edge.target ∈ a.admitted.nodes) : (offer policy a c).admitted.Acyclic := by
  cases hr : rejection? policy a.admitted c with
  | some r => rwa [offer_of_some hr]
  | none =>
    rw [offer_of_none hr]
    exact h.addEdge ((rejection?_eq_none_iff hs ht).1 hr).2 _

theorem weight?_offer_of_ne (hl : c.edge.source ≠ c.edge.target) {e : Edge} (he : e ≠ c.edge) :
    (offer policy a c).admitted.weight? e = a.admitted.weight? e := by
  cases hr : rejection? policy a.admitted c with
  | some r => rw [offer_of_some hr]
  | none =>
    rw [offer_of_none hr, Graph.weight?_addEdge _ hl, if_neg he]

/-- The edges admitted and rejected, with their weights. -/
def decided (a : Admission) : List WeightedEdge :=
  a.admitted.weightedEdges ++ a.rejected.map RejectedEdge.weighted

theorem perm_offer (hl : c.edge.source ≠ c.edge.target) (hf : a.admitted.weight? c.edge = none) :
    (offer policy a c).decided.Perm (a.decided ++ [c.weighted]) := by
  rw [decided, decided]
  cases hr : rejection? policy a.admitted c with
  | some r =>
    rw [offer_of_some hr, List.map_append, ← List.append_assoc]
    exact .refl _
  | none =>
    rw [offer_of_none hr]
    exact ((Graph.weightedEdges_addEdge hl hf _).append_right _).trans
      (List.perm_append_singleton ..).symm

/-! ## A row of offers -/

/-- The admission after a row of offers. -/
def offers (policy : LayerPolicy) (a : Admission) (cs : List Candidate) : Admission :=
  cs.foldl (offer policy) a

theorem ofGraph_eq_offers (raw : Graph) (groups : List Group) (policy : LayerPolicy) :
    ofGraph raw groups policy = offers policy (start groups) (candidates raw groups policy) := rfl

theorem offers_cons (a : Admission) (c : Candidate) (cs : List Candidate) :
    offers policy a (c :: cs) = offers policy (offer policy a c) cs := rfl

theorem offers_append (a : Admission) (cs ds : List Candidate) :
    offers policy a (cs ++ ds) = offers policy (offers policy a cs) ds := List.foldl_append

/-- An edge is offered at most once, and not a loop. -/
structure Orderly (cs : List Candidate) : Prop where
  ne : ∀ c ∈ cs, c.edge.source ≠ c.edge.target
  nodup : (cs.map Candidate.edge).Nodup

theorem adj_offers_of_adj (h : a.admitted.Adj x y) (cs : List Candidate) :
    (offers policy a cs).admitted.Adj x y := by
  induction cs generalizing a with
  | nil => exact h
  | cons c cs ih => exact ih (adj_offer_of_adj h c)

/-- An admitted edge was offered, and not rejected then. -/
theorem exists_split_of_adj (hl : ∀ c ∈ cs, c.edge.source ≠ c.edge.target)
    (h : (offers policy a cs).admitted.Adj x y) :
    a.admitted.Adj x y ∨ ∃ pre c post, cs = pre ++ c :: post ∧ ⟨x, y⟩ = c.edge ∧
      rejection? policy (offers policy a pre).admitted c = none := by
  induction cs generalizing a with
  | nil => exact .inl h
  | cons c cs ih =>
    rcases ih (fun d hd => hl d (List.mem_cons_of_mem _ hd)) h with h | ⟨pre, d, post, rfl, he, hr⟩
    · refine (adj_of_adj_offer (hl c (List.mem_cons_self ..)) h).imp id fun ⟨he, hr⟩ => ?_
      exact ⟨[], c, cs, rfl, he, hr⟩
    · exact .inr ⟨c :: pre, d, post, rfl, he, hr⟩

theorem adj_of_adj_offers (hl : ∀ c ∈ cs, c.edge.source ≠ c.edge.target)
    (h : (offers policy a cs).admitted.Adj x y) :
    a.admitted.Adj x y ∨ ∃ c ∈ cs, ⟨x, y⟩ = c.edge :=
  (exists_split_of_adj hl h).imp id fun ⟨pre, c, _, hcs, he, _⟩ =>
    ⟨c, hcs ▸ List.mem_append_right pre (List.mem_cons_self ..), he⟩

/-- A rejected edge was offered, and rejected then. -/
theorem exists_split_of_mem_rejected {r : RejectedEdge} (h : r ∈ (offers policy a cs).rejected) :
    r ∈ a.rejected ∨ ∃ pre c post, cs = pre ++ c :: post ∧ r.weighted = c.weighted ∧
      rejection? policy (offers policy a pre).admitted c = some r.reason := by
  induction cs generalizing a with
  | nil => exact .inl h
  | cons c cs ih =>
    rcases ih h with h | ⟨pre, d, post, rfl, he, hr⟩
    · cases hc : rejection? policy a.admitted c with
      | some q =>
        rw [offer_of_some hc] at h
        refine (List.mem_append.1 h).imp id fun h => ⟨[], c, cs, rfl, ?_⟩
        rw [List.mem_singleton.1 h]
        exact ⟨rfl, hc⟩
      | none =>
        rw [offer_of_none hc] at h
        exact .inl h
    · exact .inr ⟨c :: pre, d, post, rfl, he, hr⟩

theorem mem_nodes_offers (h : x ∈ a.admitted.nodes) (cs : List Candidate) :
    x ∈ (offers policy a cs).admitted.nodes := by
  induction cs generalizing a with
  | nil => exact h
  | cons c cs ih => exact ih (mem_nodes_offer h c)

/-- Offers close no cycle, even if edges are offered again. -/
theorem acyclic_offers (h : a.admitted.Acyclic)
    (hn : ∀ c ∈ cs, c.edge.source ∈ a.admitted.nodes ∧ c.edge.target ∈ a.admitted.nodes) :
    (offers policy a cs).admitted.Acyclic := by
  induction cs generalizing a with
  | nil => exact h
  | cons c cs ih =>
    obtain ⟨hs, ht⟩ := hn c (List.mem_cons_self ..)
    refine ih (acyclic_offer h hs ht) fun d hd => ?_
    have := hn d (List.mem_cons_of_mem _ hd)
    exact ⟨mem_nodes_offer this.1 c, mem_nodes_offer this.2 c⟩

/-- Each offered edge is admitted or rejected, with its weight. -/
theorem perm_offers (ho : Orderly cs) (hf : ∀ c ∈ cs, a.admitted.weight? c.edge = none) :
    (offers policy a cs).decided.Perm (a.decided ++ cs.map Candidate.weighted) := by
  induction cs generalizing a with
  | nil =>
    rw [List.map_nil, List.append_nil]
    exact .refl _
  | cons c cs ih =>
    have hl := ho.ne c (List.mem_cons_self ..)
    have hnd := List.nodup_cons.1 ho.nodup
    have ho' : Orderly cs := ⟨fun d hd => ho.ne d (List.mem_cons_of_mem _ hd), hnd.2⟩
    have hf' : ∀ d ∈ cs, (offer policy a c).admitted.weight? d.edge = none := fun d hd => by
      have hne : d.edge ≠ c.edge := fun e => hnd.1 (e ▸ List.mem_map_of_mem hd)
      rw [weight?_offer_of_ne hl hne]
      exact hf d (List.mem_cons_of_mem _ hd)
    rw [offers_cons, List.map_cons, List.append_cons]
    exact (ih ho' hf').trans ((perm_offer hl (hf c (List.mem_cons_self ..))).append_right _)

/-! ## What becomes of one edge -/

theorem adj_iff_offer (hl : c.edge.source ≠ c.edge.target)
    (hf : ¬ a.admitted.Adj c.edge.source c.edge.target) :
    (offer policy a c).admitted.Adj c.edge.source c.edge.target ↔
      rejection? policy a.admitted c = none := by
  constructor
  · intro h
    exact ((adj_of_adj_offer hl h).resolve_left hf).2
  · intro hr
    rw [offer_of_none hr]
    exact (Graph.adj_addEdge hl).2 (.inr rfl)

/-- Later offers of other edges leave what becomes of an edge as it is. -/
theorem adj_offers_iff_of_not_mem (hl : ∀ c ∈ cs, c.edge.source ≠ c.edge.target)
    (hn : ⟨x, y⟩ ∉ cs.map Candidate.edge) :
    (offers policy a cs).admitted.Adj x y ↔ a.admitted.Adj x y := by
  refine ⟨fun h => (adj_of_adj_offers hl h).resolve_right ?_, fun h => adj_offers_of_adj h cs⟩
  rintro ⟨c, hc, he⟩
  exact hn (he ▸ List.mem_map_of_mem hc)

theorem filter_rejected_offers {e : Edge} (hn : e ∉ cs.map Candidate.edge) :
    (offers policy a cs).rejected.filter (·.edge = e) = a.rejected.filter (·.edge = e) := by
  induction cs generalizing a with
  | nil => rfl
  | cons c cs ih =>
    rw [List.map_cons, List.mem_cons, not_or] at hn
    rw [offers_cons, ih hn.2]
    cases hr : rejection? policy a.admitted c with
    | some r =>
      rw [offer_of_some hr, List.filter_append, List.filter_singleton]
      simp [Ne.symm hn.1]
    | none => rw [offer_of_none hr]

theorem Orderly.not_mem (ho : Orderly (pre ++ c :: post)) :
    c.edge ∉ pre.map Candidate.edge ∧ c.edge ∉ post.map Candidate.edge := by
  have hn := ho.nodup
  rw [List.map_append, List.map_cons, List.nodup_append, List.nodup_cons] at hn
  exact ⟨fun h => hn.2.2 _ h _ (List.mem_cons_self ..) rfl, hn.2.1.1⟩

theorem Orderly.left (ho : Orderly (pre ++ post)) : Orderly pre := by
  have hn := ho.nodup
  rw [List.map_append, List.nodup_append] at hn
  exact ⟨fun d hd => ho.ne d (List.mem_append_left _ hd), hn.1⟩

/-- An edge is in the end admitted if it is when it is offered. -/
theorem adj_iff_of_split (ho : Orderly (pre ++ c :: post))
    (hf : ¬ a.admitted.Adj c.edge.source c.edge.target) :
    (offers policy a (pre ++ c :: post)).admitted.Adj c.edge.source c.edge.target ↔
      rejection? policy (offers policy a pre).admitted c = none := by
  obtain ⟨hpre, hpost⟩ := ho.not_mem
  rw [offers_append, offers_cons, adj_offers_iff_of_not_mem _ hpost, adj_iff_offer]
  · exact ho.ne c (by simp)
  · rwa [adj_offers_iff_of_not_mem ho.left.ne hpre]
  · exact fun d hd => ho.ne d (by simp [hd])

/-- An edge is in the end rejected, once, if it is when it is offered. -/
theorem rejected_of_split (ho : Orderly (pre ++ c :: post)) (hr : a.rejected = []) :
    (offers policy a (pre ++ c :: post)).rejected.filter (·.edge = c.edge) =
      ((rejection? policy (offers policy a pre).admitted c).map
        (⟨c.edge, c.weight, ·⟩)).toList := by
  obtain ⟨hpre, hpost⟩ := ho.not_mem
  have hnil : (offers policy a pre).rejected.filter (·.edge = c.edge) = [] := by
    rw [filter_rejected_offers hpre, hr, List.filter_nil]
  rw [offers_append, offers_cons, filter_rejected_offers hpost]
  cases hc : rejection? policy (offers policy a pre).admitted c with
  | some r =>
    rw [offer_of_some hc, List.filter_append, hnil]
    simp
  | none => rw [offer_of_none hc, hnil, Option.map_none, Option.toList_none]

/-- The edges admitted before an offer are those admitted in the end that were
offered before. -/
theorem adj_earlier_iff (ho : Orderly (pre ++ post)) (hf : ∀ x y, ¬ a.admitted.Adj x y) :
    (offers policy a pre).admitted.Adj x y ↔
      (offers policy a (pre ++ post)).admitted.Adj x y ∧ ⟨x, y⟩ ∈ pre.map Candidate.edge := by
  have hpost : ∀ d ∈ post, d.edge.source ≠ d.edge.target := fun d hd =>
    ho.ne d (List.mem_append_right _ hd)
  rw [offers_append]
  constructor
  · intro h
    obtain ⟨d, hd, he⟩ := (adj_of_adj_offers ho.left.ne h).resolve_left (hf x y)
    exact ⟨adj_offers_of_adj h post, he ▸ List.mem_map_of_mem hd⟩
  · rintro ⟨h, hm⟩
    have hn := ho.nodup
    rw [List.map_append, List.nodup_append] at hn
    exact (adj_offers_iff_of_not_mem hpost fun hp => hn.2.2 _ hm _ hp rfl).1 h

/-! ## All offers -/

theorem not_adj_start (groups : List Group) (x y : GroupId) :
    ¬ (start groups).admitted.Adj x y := by
  simp [start, Graph.Adj]

theorem mem_nodes_start : x ∈ (start groups).admitted.nodes ↔ x ∈ groups.map Group.id :=
  Graph.mem_nodes_ofNodes

theorem ends_of_mem_candidates {raw : Graph} (hc : c ∈ candidates raw groups policy) :
    c.edge.source ∈ groups.map Group.id ∧ c.edge.target ∈ groups.map Group.id := by
  obtain ⟨s, hs, t, ht, he, -⟩ := exists_of_mem_candidates hc
  rw [he]
  exact ⟨List.mem_map_of_mem hs, List.mem_map_of_mem ht⟩

/-- The admitted graph has no cycle. -/
theorem acyclic_ofGraph (raw : Graph) (groups : List Group) (policy : LayerPolicy) :
    (ofGraph raw groups policy).admitted.Acyclic := by
  rw [ofGraph_eq_offers]
  refine acyclic_offers (fun x hx => ?_) fun c hc => ?_
  · obtain ⟨y, hy, -⟩ := Relation.TransGen.head'_iff.1 hx
    exact not_adj_start groups x y hy
  · obtain ⟨hs, ht⟩ := ends_of_mem_candidates hc
    exact ⟨mem_nodes_start.2 hs, mem_nodes_start.2 ht⟩

theorem orderly_candidates {raw : Graph} (hd : (groups.map Group.id).Nodup)
    (hp : policy.admissionOrder.Nodup) : Orderly (candidates raw groups policy) :=
  ⟨fun _ hc => (adj_of_mem_candidates hc).ne, nodup_edge_candidates hd hp⟩

/-- Between listed groups, each edge is offered with its weight. -/
theorem perm_candidates {raw : Graph} (hn : ∀ x ∈ raw.nodes, x ∈ groups.map Group.id)
    (hd : (groups.map Group.id).Nodup) (hp : policy.admissionOrder.Nodup) :
    ((candidates raw groups policy).map Candidate.weighted).Perm raw.weightedEdges := by
  refine (List.perm_ext_iff_of_nodup ?_ ?_).2 fun w => ?_
  · refine List.Nodup.of_map WeightedEdge.edge ?_
    rw [List.map_map]
    exact nodup_edge_candidates hd hp
  · exact List.Nodup.of_map _ raw.nodup_edge_weightedEdges
  · rw [Graph.mem_weightedEdges]
    constructor
    · intro h
      obtain ⟨c, hc, rfl⟩ := List.mem_map.1 h
      obtain ⟨s, -, t, -, -, -, -, hw⟩ := exists_of_mem_candidates hc
      exact hw
    · intro h
      have hadj : raw.Adj w.edge.source w.edge.target := Graph.adj_iff_exists_weight.2 ⟨_, h⟩
      obtain ⟨s, hs, hse⟩ := List.mem_map.1 (hn _ hadj.mem_nodes.1)
      obtain ⟨t, ht, hte⟩ := List.mem_map.1 (hn _ hadj.mem_nodes.2)
      have he : w.edge = ⟨s.id, t.id⟩ := by rw [hse, hte]
      rw [he] at h
      refine List.mem_map.2 ⟨_, mem_candidates_of_weight? hd hs ht h, ?_⟩
      rw [Candidate.weighted, ← he]

/-- Each edge that is offered is admitted or rejected, once and with its weight. -/
theorem perm_decided_candidates {raw : Graph} (hd : (groups.map Group.id).Nodup)
    (hp : policy.admissionOrder.Nodup) : (ofGraph raw groups policy).decided.Perm
      ((candidates raw groups policy).map Candidate.weighted) := by
  have h : (offers policy (start groups) (candidates raw groups policy)).decided.Perm
      ((start groups).decided ++ (candidates raw groups policy).map Candidate.weighted) :=
    perm_offers (orderly_candidates hd hp) fun c _ => Graph.weight?_ofNodes _ _
  have hs : (start groups).decided = [] := by
    simp [decided, start, Graph.weightedEdges, Graph.weights_ofNodes, OrdMap.empty]
  rwa [hs, List.nil_append] at h

/-- Each edge is admitted or rejected, once and with its weight. -/
theorem perm_decided_ofGraph {raw : Graph} (hn : ∀ x ∈ raw.nodes, x ∈ groups.map Group.id)
    (hd : (groups.map Group.id).Nodup) (hp : policy.admissionOrder.Nodup) :
    (ofGraph raw groups policy).decided.Perm raw.weightedEdges :=
  (perm_decided_candidates hd hp).trans (perm_candidates hn hd hp)

end Admission

end Layering
