import Layering.Proofs.Admission.Greedy

/-!
# Graphs without conflicts

If the legal edges of a graph close no cycle, there is nothing to decide: they
are all admitted with their weights, in whatever order the layers and the groups
are taken (`Admission.weight?_ofGraph_iff`). If they close one, some of them has
to give way (`Admission.conflictFree_of_no_cycleAvoidance`). What has been
admitted has no conflicts, and is admitted again as it is
(`Admission.ofGraph_admitted`).
-/

namespace Layering.Admission

open Relation (TransGen)

variable {raw : Graph} {groups others : List Group} {policy : LayerPolicy} {order : List Layer}
  {c : Candidate} {r : RejectedEdge} {x y : GroupId} {w : Nat}

/-- There is a legal edge between listed groups. -/
def LegalAdj (raw : Graph) (groups : List Group) (policy : LayerPolicy) (x y : GroupId) : Prop :=
  raw.Adj x y ∧ ∃ s ∈ groups, ∃ t ∈ groups, s.id = x ∧ t.id = y ∧ policy.isLegal s.layer t.layer

/-- The legal edges between listed groups close no cycle. -/
def ConflictFree (raw : Graph) (groups : List Group) (policy : LayerPolicy) : Prop :=
  ∀ x, ¬ TransGen (LegalAdj raw groups policy) x x

/-! ## Legal edges -/

theorem legalAdj_of_mem_candidates (hc : c ∈ candidates raw groups policy)
    (hl : policy.isLegal c.sourceLayer c.targetLayer) :
    LegalAdj raw groups policy c.edge.source c.edge.target := by
  refine ⟨adj_of_mem_candidates hc, ?_⟩
  obtain ⟨s, hs, t, ht, he, hsl, htl, -⟩ := exists_of_mem_candidates hc
  rw [hsl, htl] at hl
  exact ⟨s, hs, t, ht, congrArg Edge.source he.symm, congrArg Edge.target he.symm, hl⟩

/-- A legal edge is offered, with its weight and as a legal one. -/
theorem exists_candidate_of_legalAdj (hd : (groups.map Group.id).Nodup)
    (h : LegalAdj raw groups policy x y) :
    ∃ c ∈ candidates raw groups policy, c.edge = ⟨x, y⟩ ∧
      policy.isLegal c.sourceLayer c.targetLayer := by
  obtain ⟨hadj, s, hs, t, ht, rfl, rfl, hl⟩ := h
  obtain ⟨w, hc⟩ := exists_candidate_of_adj hd hs ht hadj
  exact ⟨_, hc, rfl, hl⟩

/-- An offered edge is legal if listed groups with its ends make it legal. -/
theorem isLegal_of_legalAdj {graph : Graph} (hd : (groups.map Group.id).Nodup)
    (hc : c ∈ candidates graph groups policy)
    (h : LegalAdj raw groups policy c.edge.source c.edge.target) :
    policy.isLegal c.sourceLayer c.targetLayer := by
  obtain ⟨s, hs, t, ht, he, hsl, htl, -⟩ := exists_of_mem_candidates hc
  obtain ⟨-, s', hs', t', ht', hsid, htid, hl⟩ := h
  rw [he] at hsid htid
  obtain rfl := List.inj_on_of_nodup_map hd hs' hs hsid
  obtain rfl := List.inj_on_of_nodup_map hd ht' ht htid
  rwa [hsl, htl]

theorem legalAdj_of_adj (h : (ofGraph raw groups policy).admitted.Adj x y) :
    LegalAdj raw groups policy x y := by
  obtain ⟨c, hc, he, hl⟩ := exists_of_adj_ofGraph h
  have := legalAdj_of_mem_candidates hc hl
  rwa [he] at this

/-- Which edges are legal depends neither on the order of the groups nor on that of
the layers. -/
theorem legalAdj_congr (hg : others.Perm groups) :
    LegalAdj raw others { policy with admissionOrder := order } = LegalAdj raw groups policy := by
  funext x y
  simp only [LegalAdj, hg.mem_iff]
  rfl

/-! ## What is admitted -/

theorem mem_nodes_ofGraph : x ∈ (ofGraph raw groups policy).admitted.nodes ↔
    x ∈ groups.map Group.id := by
  have h : ∀ (cs : List Candidate) (a : Admission),
      (∀ c ∈ cs, c.edge.source ∈ a.admitted.nodes ∧ c.edge.target ∈ a.admitted.nodes) →
      (x ∈ (offers policy a cs).admitted.nodes ↔ x ∈ a.admitted.nodes) := by
    intro cs
    induction cs with
    | nil => exact fun _ _ => Iff.rfl
    | cons c cs ih =>
      intro a ha
      obtain ⟨hs, ht⟩ := ha c (List.mem_cons_self ..)
      rw [offers_cons, ih _ fun d hd => ?_]
      · exact mem_nodes_offer_iff hs ht
      · obtain ⟨hs, ht⟩ := ha d (List.mem_cons_of_mem _ hd)
        exact ⟨mem_nodes_offer hs c, mem_nodes_offer ht c⟩
  rw [ofGraph_eq_offers, h _ _ fun c hc => ?_, mem_nodes_start]
  obtain ⟨hs, ht⟩ := ends_of_mem_candidates hc
  exact ⟨mem_nodes_start.2 hs, mem_nodes_start.2 ht⟩

/-- An admitted edge keeps its weight. -/
theorem weight?_ofGraph_of_adj (hd : (groups.map Group.id).Nodup) (hp : policy.admissionOrder.Nodup)
    (h : (ofGraph raw groups policy).admitted.Adj x y) :
    (ofGraph raw groups policy).admitted.weight? ⟨x, y⟩ = raw.weight? ⟨x, y⟩ := by
  obtain ⟨w, hw⟩ := Graph.adj_iff_exists_weight.1 h
  have hmem : ⟨⟨x, y⟩, w⟩ ∈ (ofGraph raw groups policy).decided :=
    List.mem_append_left _ (Graph.mem_weightedEdges.2 hw)
  obtain ⟨c, hc, hcw⟩ := List.mem_map.1 ((perm_decided_candidates hd hp).mem_iff.1 hmem)
  have hraw : raw.weight? c.weighted.edge = some c.weighted.weight := by
    obtain ⟨-, -, -, -, -, -, -, hraw⟩ := exists_of_mem_candidates hc
    exact hraw
  rw [hcw] at hraw
  exact hw.trans hraw.symm

/-! ## Conflicts -/

/-- A legal edge that is not admitted is rejected for a cycle. -/
theorem exists_rejected_of_not_adj (hd : (groups.map Group.id).Nodup)
    (hp : policy.admissionOrder.Nodup) (h : LegalAdj raw groups policy x y)
    (hn : ¬ (ofGraph raw groups policy).admitted.Adj x y) :
    ∃ r ∈ (ofGraph raw groups policy).rejected, r.edge = ⟨x, y⟩ ∧
      ∃ path, r.reason = .cycleAvoidance path := by
  obtain ⟨c, hc, he, hl⟩ := exists_candidate_of_legalAdj hd h
  have hn' : ¬ (ofGraph raw groups policy).admitted.Adj c.edge.source c.edge.target := by rwa [he]
  obtain ⟨path, hrej, -⟩ := exists_path_of_not_adj hd hp hc hl hn'
  exact ⟨_, List.mem_of_mem_filter (hrej ▸ List.mem_singleton_self _), he, path, rfl⟩

/-- If no edge is rejected for a cycle, every legal edge is admitted. -/
theorem adj_of_no_cycleAvoidance (hd : (groups.map Group.id).Nodup)
    (hp : policy.admissionOrder.Nodup)
    (hn : ∀ r ∈ (ofGraph raw groups policy).rejected, ¬ r.isCycleAvoidance)
    (h : LegalAdj raw groups policy x y) : (ofGraph raw groups policy).admitted.Adj x y := by
  by_contra hadj
  obtain ⟨r, hr, -, hpath⟩ := exists_rejected_of_not_adj hd hp h hadj
  exact hn r hr (RejectedEdge.isCycleAvoidance_iff.2 hpath)

/-- If no edge is rejected for a cycle, the legal edges close none. -/
theorem conflictFree_of_no_cycleAvoidance (hd : (groups.map Group.id).Nodup)
    (hp : policy.admissionOrder.Nodup)
    (hn : ∀ r ∈ (ofGraph raw groups policy).rejected, ¬ r.isCycleAvoidance) :
    ConflictFree raw groups policy := fun x hx =>
  acyclic_ofGraph raw groups policy x (hx.lift id fun _ _ => adj_of_no_cycleAvoidance hd hp hn)

/-- If the legal edges close no cycle, none is rejected for one. -/
theorem ConflictFree.no_cycleAvoidance (h : ConflictFree raw groups policy)
    (hr : r ∈ (ofGraph raw groups policy).rejected) : ¬ r.isCycleAvoidance := by
  intro hc
  obtain ⟨path, hp⟩ := RejectedEdge.isCycleAvoidance_iff.1 hc
  obtain ⟨c, hcand, he, hl, hleads⟩ := exists_of_mem_rejected hr hp
  have hedge := legalAdj_of_mem_candidates hcand hl
  rw [← he] at hedge
  exact h _ (.head' hedge (hleads.reflTransGen.lift id fun _ _ => legalAdj_of_adj))

/-- If the legal edges close no cycle, they are what is admitted, with their
weights. -/
theorem weight?_ofGraph_iff (hd : (groups.map Group.id).Nodup) (hp : policy.admissionOrder.Nodup)
    (h : ConflictFree raw groups policy) :
    (ofGraph raw groups policy).admitted.weight? ⟨x, y⟩ = some w ↔
      LegalAdj raw groups policy x y ∧ raw.weight? ⟨x, y⟩ = some w := by
  constructor
  · intro hw
    have hadj : (ofGraph raw groups policy).admitted.Adj x y :=
      Graph.adj_iff_exists_weight.2 ⟨w, hw⟩
    exact ⟨legalAdj_of_adj hadj, (weight?_ofGraph_of_adj hd hp hadj).symm.trans hw⟩
  · rintro ⟨hl, hw⟩
    have hadj := adj_of_no_cycleAvoidance hd hp (fun _ => h.no_cycleAvoidance) hl
    exact (weight?_ofGraph_of_adj hd hp hadj).trans hw

/-! ## Admitting again -/

theorem legalAdj_admitted :
    LegalAdj (ofGraph raw groups policy).admitted groups policy =
      (ofGraph raw groups policy).admitted.Adj := by
  funext x y
  exact propext ⟨fun h => h.1, fun h => ⟨h, (legalAdj_of_adj h).2⟩⟩

/-- If all edges are legal and close no cycle, none is rejected. -/
theorem ConflictFree.rejected_eq_nil (h : ConflictFree raw groups policy)
    (hd : (groups.map Group.id).Nodup) (hl : ∀ x y, raw.Adj x y → LegalAdj raw groups policy x y) :
    (ofGraph raw groups policy).rejected = [] := by
  refine List.eq_nil_iff_forall_not_mem.2 fun r hr => ?_
  have hnot := h.no_cycleAvoidance hr
  obtain ⟨pre, c, post, hcs, -, hrej⟩ :=
    (exists_split_of_mem_rejected hr).resolve_left List.not_mem_nil
  have hc : c ∈ candidates raw groups policy := by simp [hcs]
  rw [rejection?, if_pos (isLegal_of_legalAdj hd hc (hl _ _ (adj_of_mem_candidates hc)))] at hrej
  obtain ⟨path, -, hp⟩ := Option.map_eq_some_iff.1 hrej
  exact hnot (RejectedEdge.isCycleAvoidance_iff.2 ⟨path, hp.symm⟩)

/-- What has been admitted is admitted again, and nothing of it is rejected. -/
theorem ofGraph_admitted (hd : (groups.map Group.id).Nodup) (hp : policy.admissionOrder.Nodup) :
    ofGraph (ofGraph raw groups policy).admitted groups policy =
      ⟨(ofGraph raw groups policy).admitted, []⟩ := by
  have hfree : ConflictFree (ofGraph raw groups policy).admitted groups policy := by
    rw [ConflictFree, legalAdj_admitted]
    exact acyclic_ofGraph raw groups policy
  have hrej := hfree.rejected_eq_nil hd fun x y h => by rwa [legalAdj_admitted]
  have hadm : (ofGraph (ofGraph raw groups policy).admitted groups policy).admitted =
      (ofGraph raw groups policy).admitted := by
    refine Graph.ext_weight? (fun x => mem_nodes_ofGraph.trans mem_nodes_ofGraph.symm) fun e => ?_
    refine Option.ext fun w => ?_
    rw [weight?_ofGraph_iff hd hp hfree, legalAdj_admitted]
    exact and_iff_right_of_imp fun hw => Graph.adj_iff_exists_weight.2 ⟨w, hw⟩
  calc ofGraph (ofGraph raw groups policy).admitted groups policy
      = ⟨(ofGraph (ofGraph raw groups policy).admitted groups policy).admitted,
          (ofGraph (ofGraph raw groups policy).admitted groups policy).rejected⟩ := rfl
    _ = ⟨(ofGraph raw groups policy).admitted, []⟩ := by rw [hadm, hrej]

/-- No edge is rejected for a cycle if and only if the legal edges close none; the
admitted edges are then the legal ones with their weights, whatever the order of
the layers and of the groups. What has been admitted is admitted again. -/
theorem no_cycleAvoidance_iff (raw : Graph) {groups : List Group} {policy : LayerPolicy}
    (hd : (groups.map Group.id).Nodup) (hp : policy.validate = .ok ()) :
    ((∀ r ∈ (ofGraph raw groups policy).rejected, ¬ r.isCycleAvoidance) ↔
      ConflictFree raw groups policy) ∧
    (ConflictFree raw groups policy → ∀ others order, others.Perm groups →
      { policy with admissionOrder := order }.validate = .ok () → ∀ x y w,
        (ofGraph raw others { policy with admissionOrder := order }).admitted.weight? ⟨x, y⟩ = some w ↔
          LegalAdj raw groups policy x y ∧ raw.weight? ⟨x, y⟩ = some w) ∧
    ofGraph (ofGraph raw groups policy).admitted groups policy =
      ⟨(ofGraph raw groups policy).admitted, []⟩ := by
  have hp := LayerPolicy.validate_eq_ok_iff.1 hp
  refine ⟨⟨conflictFree_of_no_cycleAvoidance hd hp, fun h _ => h.no_cycleAvoidance⟩, ?_,
    ofGraph_admitted hd hp⟩
  intro h others order hg ho x y w
  have hd' : (others.map Group.id).Nodup := (hg.map _).nodup_iff.2 hd
  have h' : ConflictFree raw others { policy with admissionOrder := order } := by
    rwa [ConflictFree, legalAdj_congr hg]
  rw [weight?_ofGraph_iff hd' (LayerPolicy.validate_eq_ok_iff.1 ho) h', legalAdj_congr hg]

/-- A cycle of two utilities and an adapter; only the edge of the adapter is illegal. -/
def detour : Graph := .ofEdges [⟨0, 1⟩, ⟨1, 2⟩, ⟨2, 0⟩, ⟨0, 1⟩]

/-- An illegal edge closes the only cycle of the detour: in the opposite order of
groups and layers its other edges are admitted as they are. -/
theorem no_cycleAvoidance_detour :
    let groups := [utility 0, utility 1, adapter 2]
    let policy := { LayerPolicy.standard with admissionOrder := [.infrastructure] }
    (groups.map Group.id).Nodup ∧ LayerPolicy.standard.validate = .ok () ∧
      ConflictFree detour groups .standard ∧
      groups.reverse.Perm groups ∧ policy.validate = .ok () ∧
      LegalAdj detour groups .standard 0 1 ∧
      (ofGraph detour groups.reverse policy).admitted.weight? ⟨0, 1⟩ = some 2 := by
  have hd : ([utility 0, utility 1, adapter 2].map Group.id).Nodup := by decide
  have hp : LayerPolicy.standard.validate = .ok () := rfl
  have h := no_cycleAvoidance_iff detour hd hp
  have hfree := h.1.1 (by decide)
  have hl : LegalAdj detour [utility 0, utility 1, adapter 2] .standard 0 1 :=
    ⟨by decide, utility 0, by simp, utility 1, by simp, rfl, rfl, by decide⟩
  have hg := List.reverse_perm [utility 0, utility 1, adapter 2]
  exact ⟨hd, hp, hfree, hg, rfl, hl, (h.2.1 hfree _ [.infrastructure] hg rfl 0 1 2).2 ⟨hl, by decide⟩⟩

end Layering.Admission
