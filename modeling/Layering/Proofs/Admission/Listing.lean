import Layering.Proofs.Admission.Ranks
import Layering.Proofs.Admission.Scale
import Layering.Proofs.Analysis

/-!
# Listings

The sources of a layer are taken in the order in which they are listed, and of two
edges that close a cycle the one that is offered first is admitted. So two listings of
the same groups admit the same edges of every graph if and only if they list the groups
of each layer in the same order (`Admission.ofGraph_eq_iff_filter_eq`). In particular
sources are taken by id if and only if each layer is listed by id
(`Admission.listing_decides`), as the groups of a report are
(`Analysis.ofGraph_byId_of_run`).
-/

namespace Layering

namespace Admission

variable {raw : Graph} {groups others : List Group} {policy : LayerPolicy} {s t : Group}
  {id : GroupId} {l : Layer}

/-- There is one listing in the order of a number. -/
theorem eq_of_perm_of_pairwise {place : Group → Nat} (hg : others.Perm groups)
    (ho : others.Pairwise fun s t => place s < place t)
    (hp : groups.Pairwise fun s t => place s < place t) : others = groups :=
  List.Perm.eq_of_pairwise (fun _ _ _ _ hst hts => absurd hts hst.asymm) ho hp hg

/-! ## Layers listed alike -/

theorem layerOf?_eq_some_iff (hd : (groups.map Group.id).Nodup) :
    layerOf? groups id = some l ↔ ∃ t ∈ groups, t.id = id ∧ t.layer = l := by
  constructor
  · exact exists_of_layerOf?
  · rintro ⟨t, ht, rfl, rfl⟩
    exact layerOf?_of_mem hd ht

theorem layerOf?_of_perm (hd : (groups.map Group.id).Nodup) (hg : others.Perm groups) :
    layerOf? others = layerOf? groups := by
  have hd' : (others.map Group.id).Nodup := (hg.map _).nodup_iff.2 hd
  funext id
  refine Option.ext fun l => ?_
  simp only [layerOf?_eq_some_iff hd, layerOf?_eq_some_iff hd', hg.mem_iff]

theorem start_of_perm (hg : others.Perm groups) : start others = start groups := by
  rw [start, start, Admission.mk.injEq]
  refine ⟨Graph.ext_weight? (fun x => ?_) fun e => ?_, rfl⟩
  · rw [Graph.mem_nodes_ofNodes, Graph.mem_nodes_ofNodes, (hg.map _).mem_iff]
  · rw [Graph.weight?_ofNodes, Graph.weight?_ofNodes]

/-- How groups of different layers are listed among each other does not matter. -/
theorem ofGraph_of_filter_eq (hd : (groups.map Group.id).Nodup) (hg : others.Perm groups)
    (h : ∀ l, others.filter (·.layer = l) = groups.filter (·.layer = l)) (raw : Graph)
    (policy : LayerPolicy) : ofGraph raw others policy = ofGraph raw groups policy := by
  have hfrom : candidatesFrom raw others = candidatesFrom raw groups := by
    funext s
    rw [candidatesFrom, candidatesFrom, layerOf?_of_perm hd hg]
  have hcandidates : candidates raw others policy = candidates raw groups policy := by
    rw [candidates, candidates, hfrom]
    simp only [h]
  rw [ofGraph, ofGraph, hcandidates, start_of_perm hg]

/-! ## Edges that come first -/

/-- A legal edge is admitted if no edge is offered before it. -/
theorem adj_ofGraph_of_first (hd : (groups.map Group.id).Nodup) (hp : policy.admissionOrder.Nodup)
    (hs : s ∈ groups) (ht : t ∈ groups) (hadj : raw.Adj s.id t.id)
    (hl : policy.isLegal s.layer t.layer)
    (hfirst : ∀ x y, raw.Adj x y → ¬ Precedes groups policy ⟨x, y⟩ ⟨s.id, t.id⟩) :
    (ofGraph raw groups policy).admitted.Adj s.id t.id := by
  obtain ⟨w, hc⟩ := exists_candidate_of_adj hd hs ht hadj
  refine (adj_ofGraph_iff hd hp hc hl).2 fun hpath => ?_
  rcases hpath.cases_head with heq | ⟨x, ⟨hx, hprecedes⟩, -⟩
  · exact hadj.ne heq.symm
  · obtain ⟨c, hc, he, -⟩ := exists_of_adj_ofGraph hx
    have hraw := adj_of_mem_candidates hc
    rw [he] at hraw
    exact hfirst _ _ hraw hprecedes

/-- Edges are rejected in the order in which they are offered. -/
theorem exists_sublist_rejected (policy : LayerPolicy) (a : Admission) (cs : List Candidate) :
    ∃ rs : List RejectedEdge, (offers policy a cs).rejected = a.rejected ++ rs ∧
      (rs.map RejectedEdge.edge).Sublist (cs.map Candidate.edge) := by
  induction cs generalizing a with
  | nil => exact ⟨[], (List.append_nil _).symm, .slnil⟩
  | cons c cs ih =>
    obtain ⟨rs, hrs, hsub⟩ := ih (offer policy a c)
    cases hc : rejection? policy a.admitted c with
    | some r =>
      refine ⟨⟨c.edge, c.weight, r⟩ :: rs, ?_, hsub.cons_cons c.edge⟩
      rw [offers_cons, hrs, offer_of_some hc, List.append_assoc, List.singleton_append]
    | none =>
      refine ⟨rs, ?_, hsub.cons c.edge⟩
      rw [offers_cons, hrs, offer_of_none hc]

theorem precedes_rejected (raw : Graph) (hd : (groups.map Group.id).Nodup)
    (hp : policy.admissionOrder.Nodup) :
    ((ofGraph raw groups policy).rejected.map RejectedEdge.edge).Pairwise
      (Precedes groups policy) := by
  obtain ⟨rs, hrs, hsub⟩ :=
    exists_sublist_rejected policy (start groups) (candidates raw groups policy)
  have hedges : ((candidates raw groups policy).map Candidate.edge).Pairwise
      (Precedes groups policy) := List.pairwise_map.2 (precedes_candidates hd hp)
  rw [ofGraph_eq_offers, hrs]
  exact hedges.sublist hsub

/-- An edge against the layers is rejected. -/
theorem exists_rejected_of_not_isLegal (hd : (groups.map Group.id).Nodup)
    (hp : policy.admissionOrder.Nodup) (hs : s ∈ groups) (ht : t ∈ groups)
    (hadj : raw.Adj s.id t.id) (hl : ¬ policy.isLegal s.layer t.layer) :
    ∃ r ∈ (ofGraph raw groups policy).rejected, r.edge = ⟨s.id, t.id⟩ := by
  obtain ⟨w, hc⟩ := exists_candidate_of_adj hd hs ht hadj
  have hdecided : (⟨⟨s.id, t.id⟩, w⟩ : WeightedEdge) ∈ (ofGraph raw groups policy).decided :=
    (perm_decided_candidates hd hp).mem_iff.2 (List.mem_map_of_mem (f := Candidate.weighted) hc)
  rcases List.mem_append.1 hdecided with hadmitted | hrejected
  · have hadj' : (ofGraph raw groups policy).admitted.Adj s.id t.id :=
      Graph.adj_of_mem_weightedEdges hadmitted
    exact absurd (isLegal_of_transGen hd hs ht (.single hadj')) hl
  · obtain ⟨r, hr, he⟩ := List.mem_map.1 hrejected
    exact ⟨r, hr, congrArg WeightedEdge.edge he⟩

/-! ## Layers listed differently -/

/-- An edge between two groups and one back. -/
def roundTrip (x y : GroupId) : Graph := .ofEdges [⟨x, y⟩, ⟨y, x⟩]

theorem adj_roundTrip {x y : GroupId} (h : x ≠ y) {a b : GroupId} : (roundTrip x y).Adj a b ↔
    (⟨a, b⟩ : Edge) = ⟨x, y⟩ ∨ (⟨a, b⟩ : Edge) = ⟨y, x⟩ := by
  have hempty : ¬ Graph.empty.Adj a b := OrdSet.not_mem_empty _
  rw [roundTrip, Graph.ofEdges, List.foldl_cons, List.foldl_cons, List.foldl_nil,
    Graph.adj_addEdge h.symm, Graph.adj_addEdge h, or_iff_right hempty]

theorem roundTrip_comm (x y : GroupId) : roundTrip x y = roundTrip y x :=
  Graph.foldl_addEdge_of_perm (.swap ..) _

/-- Of the edges between two groups of a layer, that of the group listed first is admitted
if they are legal. -/
theorem adj_ofGraph_roundTrip (hd : (groups.map Group.id).Nodup) (hp : policy.admissionOrder.Nodup)
    (hs : s ∈ groups) (ht : t ∈ groups) (hl : s.layer = t.layer)
    (hlt : groupPlace groups s.id < groupPlace groups t.id)
    (hlegal : policy.isLegal s.layer t.layer) :
    (ofGraph (roundTrip s.id t.id) groups policy).admitted.Adj s.id t.id := by
  have hne : s.id ≠ t.id := fun he => Nat.ne_of_lt hlt (by rw [he])
  refine adj_ofGraph_of_first hd hp hs ht ((adj_roundTrip hne).2 (.inl rfl)) hlegal fun x y hxy => ?_
  rcases (adj_roundTrip hne).1 hxy with he | he
  · rw [he]
    exact Precedes.irrefl _
  · rw [he]
    exact (precedes_of_layer_eq policy hd hs ht hl hlt t.id s.id).asymm

/-- If they are not, both are rejected, that of the group listed first before the other. -/
theorem rejected_ofGraph_roundTrip (hd : (groups.map Group.id).Nodup)
    (hp : policy.admissionOrder.Nodup) (hs : s ∈ groups) (ht : t ∈ groups) (hl : s.layer = t.layer)
    (hlt : groupPlace groups s.id < groupPlace groups t.id)
    (hlegal : ¬ policy.isLegal s.layer t.layer) :
    (ofGraph (roundTrip s.id t.id) groups policy).rejected.map RejectedEdge.edge =
      [⟨s.id, t.id⟩, ⟨t.id, s.id⟩] := by
  have hne : s.id ≠ t.id := fun he => Nat.ne_of_lt hlt (by rw [he])
  have hlegal' : ¬ policy.isLegal t.layer s.layer := by rwa [hl] at hlegal ⊢
  have hrejected := precedes_rejected (roundTrip s.id t.id) hd hp
  have hpair : [(⟨s.id, t.id⟩ : Edge), ⟨t.id, s.id⟩].Pairwise (Precedes groups policy) :=
    List.pairwise_pair.2 (precedes_of_layer_eq policy hd hs ht hl hlt t.id s.id)
  have hirrefl : ∀ {a b : Edge}, Precedes groups policy a b → a ≠ b := fun h he =>
    Precedes.irrefl _ (he ▸ h)
  refine List.Perm.eq_of_pairwise (fun a b _ _ hab hba => absurd hba hab.asymm) hrejected hpair
    ((List.perm_ext_iff_of_nodup (hrejected.imp hirrefl) (hpair.imp hirrefl)).2 fun e => ?_)
  rw [List.mem_map, List.mem_pair]
  constructor
  · rintro ⟨r, hr, rfl⟩
    have hadj : (roundTrip s.id t.id).Adj r.edge.source r.edge.target :=
      Graph.adj_iff_exists_weight.2 ⟨_, weight?_of_mem_rejected hr⟩
    exact (adj_roundTrip hne).1 hadj
  · rintro (rfl | rfl)
    · exact exists_rejected_of_not_isLegal hd hp hs ht ((adj_roundTrip hne).2 (.inl rfl)) hlegal
    · exact exists_rejected_of_not_isLegal hd hp ht hs ((adj_roundTrip hne).2 (.inr rfl)) hlegal'

/-- If the edges between two groups of a layer fare alike in two listings, the groups are
listed in the same order. -/
theorem groupPlace_lt_of_ofGraph_eq (hd : (groups.map Group.id).Nodup)
    (hp : policy.admissionOrder.Nodup) (hg : others.Perm groups) (hs : s ∈ groups) (ht : t ∈ groups)
    (hl : s.layer = t.layer) (hlt : groupPlace groups s.id < groupPlace groups t.id)
    (heq : ofGraph (roundTrip s.id t.id) others policy =
      ofGraph (roundTrip s.id t.id) groups policy) :
    groupPlace others s.id < groupPlace others t.id := by
  have hd' : (others.map Group.id).Nodup := (hg.map _).nodup_iff.2 hd
  have hs' := hg.mem_iff.2 hs
  have ht' := hg.mem_iff.2 ht
  have hne : s.id ≠ t.id := fun he => Nat.ne_of_lt hlt (by rw [he])
  by_contra hn
  have hgt : groupPlace others t.id < groupPlace others s.id := by
    refine Nat.lt_of_le_of_ne (Nat.le_of_not_lt hn) fun he => hne ?_
    exact ((List.idxOf_inj (List.mem_map_of_mem ht')).1 he).symm
  by_cases hlegal : policy.isLegal s.layer t.layer
  · -- Each listing admits the edge that it offers first, and both are a cycle.
    have hlegal' : policy.isLegal t.layer s.layer := by rwa [hl] at hlegal ⊢
    have hthere := adj_ofGraph_roundTrip hd hp hs ht hl hlt hlegal
    have hback := adj_ofGraph_roundTrip hd' hp ht' hs' hl.symm hgt hlegal'
    rw [roundTrip_comm, heq] at hback
    exact acyclic_ofGraph _ _ _ s.id (.head hthere (.single hback))
  · have hlegal' : ¬ policy.isLegal t.layer s.layer := by rwa [hl] at hlegal ⊢
    have hrejected := rejected_ofGraph_roundTrip hd' hp ht' hs' hl.symm hgt hlegal'
    rw [roundTrip_comm, heq, rejected_ofGraph_roundTrip hd hp hs ht hl hlt hlegal] at hrejected
    exact hne (congrArg Edge.source (List.head_eq_of_cons_eq hrejected))

/-- Two listings of the same groups make no difference if and only if the groups of each
layer are listed in the same order. -/
theorem ofGraph_eq_iff_filter_eq (hd : (groups.map Group.id).Nodup)
    (hp : policy.admissionOrder.Nodup) (hg : others.Perm groups) :
    (∀ raw, ofGraph raw others policy = ofGraph raw groups policy) ↔
      ∀ l, others.filter (·.layer = l) = groups.filter (·.layer = l) := by
  refine ⟨fun h l => ?_, fun h raw => ofGraph_of_filter_eq hd hg h raw policy⟩
  have hd' : (others.map Group.id).Nodup := (hg.map _).nodup_iff.2 hd
  have hothers := (pairwise_groupPlace_lt hd').filter (·.layer = l)
  have hgroups : (groups.filter (·.layer = l)).Pairwise fun s t =>
      groupPlace others s.id < groupPlace others t.id := by
    refine ((pairwise_groupPlace_lt hd).filter _).imp_of_mem fun {s t} hs ht hlt => ?_
    obtain ⟨hs, hsl⟩ := List.mem_filter.1 hs
    obtain ⟨ht, htl⟩ := List.mem_filter.1 ht
    rw [decide_eq_true_eq] at hsl htl
    exact groupPlace_lt_of_ofGraph_eq hd hp hg hs ht (hsl.trans htl.symm) hlt (h _)
  exact eq_of_perm_of_pairwise (hg.filter _) hothers hgroups

/-! ## Listings by id -/

/-- The groups in the order of their ids. -/
def byId (groups : List Group) : List Group := groups.mergeSort fun s t => s.id ≤ t.id

theorem perm_byId (groups : List Group) : (byId groups).Perm groups := List.mergeSort_perm ..

theorem pairwise_byId (hd : (groups.map Group.id).Nodup) :
    (byId groups).Pairwise fun s t => s.id < t.id := by
  have htrans : ∀ a b c : Group, decide (a.id ≤ b.id) → decide (b.id ≤ c.id) →
      decide (a.id ≤ c.id) := fun a b c hab hbc =>
    decide_eq_true ((of_decide_eq_true hab).trans (of_decide_eq_true hbc))
  have htotal : ∀ a b : Group, decide (a.id ≤ b.id) || decide (b.id ≤ a.id) := fun a b => by
    simpa using Nat.le_total a.id b.id
  have hle := List.pairwise_mergeSort htrans htotal groups
  have hne := List.pairwise_map.1 (((perm_byId groups).map Group.id).nodup_iff.2 hd)
  exact (hle.and hne).imp fun h => Nat.lt_of_le_of_ne (of_decide_eq_true h.1) h.2

/-- Groups that are listed by id are in the order of their ids. -/
theorem eq_byId_of_pairwise (hd : (groups.map Group.id).Nodup) (hg : others.Perm groups)
    (h : others.Pairwise fun s t => s.id < t.id) : others = byId groups :=
  eq_of_perm_of_pairwise (hg.trans (perm_byId groups).symm) h (pairwise_byId hd)

/-- Two listings of the same groups admit and reject the same edges of every graph if and
only if they list the groups of each layer in the same order. So the sources of a layer
are taken by id, whatever the graph, if and only if they are listed by id. -/
theorem listing_decides {groups : List Group} {policy : LayerPolicy}
    (hd : (groups.map Group.id).Nodup) (hp : policy.validate = .ok ()) :
    (∀ others : List Group, others.Perm groups →
      ((∀ raw, ofGraph raw others policy = ofGraph raw groups policy) ↔
        ∀ l, others.filter (·.layer = l) = groups.filter (·.layer = l))) ∧
    ((∀ raw, ofGraph raw groups policy = ofGraph raw (byId groups) policy) ↔
      ∀ l, (groups.filter (·.layer = l)).Pairwise fun s t => s.id < t.id) := by
  have hp := LayerPolicy.validate_eq_ok_iff.1 hp
  refine ⟨fun others hg => ofGraph_eq_iff_filter_eq hd hp hg, ?_⟩
  have hsorted := pairwise_byId hd
  have hiff := ofGraph_eq_iff_filter_eq hd hp (perm_byId groups)
  simp only [eq_comm (a := ofGraph _ groups policy)]
  refine hiff.trans (forall_congr' fun l => ⟨fun h => ?_, fun h => ?_⟩)
  · rw [← h]
    exact hsorted.filter _
  · exact eq_of_perm_of_pairwise ((perm_byId groups).filter _) (hsorted.filter _) h

/-- An adapter may be listed before, between or after two utilities, but the utilities are
listed against their ids, which some graph shows. -/
theorem listing_decides_utilities :
    let groups := [utility 1, adapter 2, utility 0]
    (groups.map Group.id).Nodup ∧ LayerPolicy.standard.validate = .ok () ∧
      [adapter 2, utility 1, utility 0].Perm groups ∧
      ofGraph tangle [adapter 2, utility 1, utility 0] .standard = ofGraph tangle groups .standard ∧
      ∃ raw, ofGraph raw groups .standard ≠ ofGraph raw (byId groups) .standard := by
  have hd : ([utility 1, adapter 2, utility 0].map Group.id).Nodup := by decide
  have hp : LayerPolicy.standard.validate = .ok () := rfl
  have hg : [adapter 2, utility 1, utility 0].Perm [utility 1, adapter 2, utility 0] :=
    .swap ..
  obtain ⟨halike, hbyId⟩ := listing_decides hd hp
  have hfilter : ∀ l, [adapter 2, utility 1, utility 0].filter (·.layer = l) =
      [utility 1, adapter 2, utility 0].filter (·.layer = l) := fun l => by cases l <;> rfl
  refine ⟨hd, hp, hg, (halike _ hg).2 hfilter tangle, ?_⟩
  by_contra hall
  have hsorted := hbyId.1 (fun raw => not_not.1 fun hne => hall ⟨raw, hne⟩) .infrastructure
  exact absurd hsorted (by decide)

/-- Of two utilities that depend on each other, the one that is listed first has its edge
admitted. -/
theorem listing_changes_admitted :
    let groups := [utility 0, utility 1]
    let a := ofGraph (roundTrip 0 1) groups .standard
    let b := ofGraph (roundTrip 0 1) groups.reverse .standard
    (groups.map Group.id).Nodup ∧ LayerPolicy.standard.validate = .ok () ∧
      groups.reverse.Perm groups ∧ b ≠ a ∧
      a.admitted.weightedEdges = [⟨⟨0, 1⟩, 1⟩] ∧
      a.rejected = [⟨⟨1, 0⟩, 1, .cycleAvoidance [0, 1]⟩] ∧
      b.admitted.weightedEdges = [⟨⟨1, 0⟩, 1⟩] ∧
      b.rejected = [⟨⟨0, 1⟩, 1, .cycleAvoidance [1, 0]⟩] := by
  intro groups a b
  have ha : a.rejected = [⟨⟨1, 0⟩, 1, .cycleAvoidance [0, 1]⟩] := by decide
  have hb : b.rejected = [⟨⟨0, 1⟩, 1, .cycleAvoidance [1, 0]⟩] := by decide
  refine ⟨by decide, rfl, List.reverse_perm groups, fun heq => ?_, by decide, ha, by decide, hb⟩
  rw [heq, ha] at hb
  exact absurd hb (by decide)

end Admission

/-- The groups of a report are listed by id, so its edges are admitted as they are when
the sources of a layer are taken by id. -/
theorem Analysis.ofGraph_byId_of_run {corpus : Corpus} {config : AnalysisConfig} {a : Analysis}
    (h : run corpus config = .ok a) {others : List Group} (hg : others.Perm a.report.groups) :
    Admission.ofGraph a.raw (Admission.byId others) config.layers =
      ⟨a.admitted, a.report.rejectedEdges⟩ := by
  obtain ⟨-, classifier, -, rfl⟩ := run_eq_ok_iff.1 h
  have hids : ((Grouping.ofCorpus corpus classifier config.resolution).groups.map
      Group.id).Pairwise (· < ·) := by
    rw [Grouping.map_id_ofCorpus]
    exact List.pairwise_lt_range
  have hd : (others.map Group.id).Nodup := (hg.map _).nodup_iff.2 Grouping.nodup_map_id
  rw [← Admission.eq_byId_of_pairwise hd hg.symm (List.pairwise_map.1 hids)]
  rfl

end Layering
