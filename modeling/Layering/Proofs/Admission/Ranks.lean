import Layering.Proofs.Admission.Greedy

/-!
# Ranks along paths

The layering holds along whole paths of the admitted graph
(`Admission.exists_isLegal_of_transGen`). A path that leads from the target of a
legal edge back to its source can therefore climb no rank: an edge is rejected
for a cycle only within one rank, among layers that the policy tolerates there
(`Admission.rejected_within_rank`).
-/

namespace Layering.Admission

open Relation (ReflTransGen TransGen)

variable {raw : Graph} {groups : List Group} {policy : LayerPolicy} {s t : Group} {x y : GroupId}

theorem exists_isLegal_of_adj (h : (ofGraph raw groups policy).admitted.Adj x y) :
    ∃ s ∈ groups, ∃ t ∈ groups, s.id = x ∧ t.id = y ∧ policy.isLegal s.layer t.layer := by
  obtain ⟨c, hc, he, hl⟩ := exists_of_adj_ofGraph h
  obtain ⟨s, hs, t, ht, he', hsl, htl, -⟩ := exists_of_mem_candidates hc
  rw [he] at he'
  rw [hsl, htl] at hl
  exact ⟨s, hs, t, ht, congrArg Edge.source he'.symm, congrArg Edge.target he'.symm, hl⟩

/-- The ends of an admitted path are listed groups, and the first may depend on
the last. -/
theorem exists_isLegal_of_transGen (hd : (groups.map Group.id).Nodup)
    (h : TransGen (ofGraph raw groups policy).admitted.Adj x y) :
    ∃ s ∈ groups, ∃ t ∈ groups, s.id = x ∧ t.id = y ∧ policy.isLegal s.layer t.layer := by
  induction h with
  | single h => exact exists_isLegal_of_adj h
  | tail _ h ih =>
    obtain ⟨s, hs, m, hm, hsx, hmy, hl⟩ := ih
    obtain ⟨m', hm', t, ht, hmy', htz, hl'⟩ := exists_isLegal_of_adj h
    obtain rfl := List.inj_on_of_nodup_map hd hm hm' (hmy.trans hmy'.symm)
    exact ⟨s, hs, t, ht, hsx, htz, LayerPolicy.isLegal_trans hl hl'⟩

theorem isLegal_of_transGen (hd : (groups.map Group.id).Nodup) (hs : s ∈ groups) (ht : t ∈ groups)
    (h : TransGen (ofGraph raw groups policy).admitted.Adj s.id t.id) :
    policy.isLegal s.layer t.layer := by
  obtain ⟨u, hu, v, hv, hus, hvt, hl⟩ := exists_isLegal_of_transGen hd h
  obtain rfl := List.inj_on_of_nodup_map hd hu hs hus
  obtain rfl := List.inj_on_of_nodup_map hd hv ht hvt
  exact hl

/-- No rank on an admitted path is lower than the one it starts from. -/
theorem rank_le_of_reach (hd : (groups.map Group.id).Nodup) (hs : s ∈ groups) (ht : t ∈ groups)
    (h : (ofGraph raw groups policy).admitted.Reach s.id t.id) :
    policy.rank s.layer ≤ policy.rank t.layer := by
  rcases Relation.reflTransGen_iff_eq_or_transGen.1 h with h | h
  · rw [List.inj_on_of_nodup_map hd ht hs h]
    exact UInt32.le_refl _
  · exact LayerPolicy.rank_le_of_isLegal (isLegal_of_transGen hd hs ht h)

theorem exists_group_of_reach (ht : t ∈ groups)
    (h : (ofGraph raw groups policy).admitted.Reach t.id x) : ∃ g ∈ groups, g.id = x := by
  cases h with
  | refl => exact ⟨t, ht, rfl⟩
  | tail _ h =>
    obtain ⟨-, -, g, hg, -, hgx, -⟩ := exists_isLegal_of_adj h
    exact ⟨g, hg, hgx⟩

/-- A group between the target and the source of a legal edge has their rank, and
its layer is tolerated there. -/
theorem rank_eq_of_reach_of_reach (hd : (groups.map Group.id).Nodup) (hs : s ∈ groups)
    (ht : t ∈ groups) {g : Group} (hg : g ∈ groups) (hl : policy.isLegal s.layer t.layer)
    (htg : (ofGraph raw groups policy).admitted.Reach t.id g.id)
    (hgs : (ofGraph raw groups policy).admitted.Reach g.id s.id) :
    policy.rank g.layer = policy.rank s.layer ∧ g.layer ∈ policy.sameRankLayers := by
  have hst := LayerPolicy.rank_le_of_isLegal hl
  have htg := rank_le_of_reach hd ht hg htg
  have hgs' := rank_le_of_reach hd hg hs hgs
  refine ⟨UInt32.le_antisymm hgs' (UInt32.le_trans hst htg), ?_⟩
  rcases Relation.reflTransGen_iff_eq_or_transGen.1 hgs with h | h
  · -- The path ends here: the edge itself goes out from this group.
    rw [← List.inj_on_of_nodup_map hd hs hg h]
    exact LayerPolicy.mem_sameRankLayers_of_isLegal hl (UInt32.le_trans htg hgs')
  · exact LayerPolicy.mem_sameRankLayers_of_isLegal (isLegal_of_transGen hd hg hs h)
      (UInt32.le_trans hst htg)

/-- The groups on the path of an edge that is rejected for a cycle have one rank,
and their layers are tolerated there. -/
theorem rejected_within_rank (hd : (groups.map Group.id).Nodup) {r : RejectedEdge}
    {path : List GroupId} (hr : r ∈ (ofGraph raw groups policy).rejected)
    (hp : r.reason = .cycleAvoidance path) :
    ∃ rank, ∀ x ∈ path, ∃ g ∈ groups, g.id = x ∧ policy.rank g.layer = rank ∧
      g.layer ∈ policy.sameRankLayers := by
  obtain ⟨c, hc, he, hl, hleads⟩ := exists_of_mem_rejected hr hp
  obtain ⟨s, hs, t, ht, he', hsl, htl, -⟩ := exists_of_mem_candidates hc
  rw [hsl, htl] at hl
  rw [he, he'] at hleads
  refine ⟨policy.rank s.layer, fun x hx => ?_⟩
  obtain ⟨htx, hxs⟩ := hleads.reflTransGen_of_mem hx
  obtain ⟨g, hg, rfl⟩ := exists_group_of_reach ht htx
  exact ⟨g, hg, rfl, rank_eq_of_reach_of_reach hd hs ht hg hl htx hxs⟩

/-- Whatever the ranks, a group may depend on every group that it reaches along
admitted edges, and edges are rejected for a cycle only within one rank, among
layers that are tolerated there. -/
theorem legal_along_paths (raw : Graph) {groups : List Group} (policy : LayerPolicy)
    (hd : (groups.map Group.id).Nodup) :
    (∀ s ∈ groups, ∀ t ∈ groups, TransGen (ofGraph raw groups policy).admitted.Adj s.id t.id →
      policy.isLegal s.layer t.layer) ∧
    (∀ r ∈ (ofGraph raw groups policy).rejected, ∀ path, r.reason = .cycleAvoidance path →
      ∃ rank, ∀ x ∈ path, ∃ g ∈ groups, g.id = x ∧ policy.rank g.layer = rank ∧
        g.layer ∈ policy.sameRankLayers) ∧
    (policy.sameRankLayers = [] →
      ∀ r ∈ (ofGraph raw groups policy).rejected, ¬ r.isCycleAvoidance) := by
  refine ⟨fun s hs t ht => isLegal_of_transGen hd hs ht, fun r hr path =>
    rejected_within_rank hd hr, fun hn r hr hc => ?_⟩
  obtain ⟨path, hp⟩ := RejectedEdge.isCycleAvoidance_iff.1 hc
  obtain ⟨-, -, -, -, hleads⟩ := exists_of_mem_rejected hr hp
  obtain ⟨rank, hrank⟩ := rejected_within_rank hd hr hp
  obtain ⟨g, -, -, -, hg⟩ := hrank _ (List.mem_of_mem_head? hleads.head)
  rw [hn] at hg
  exact List.not_mem_nil hg

/-- Two utilities that depend on each other, and an adapter of their rank that one
of them depends on and that depends on the other. -/
def tangle : Graph := .ofEdges [⟨0, 1⟩, ⟨1, 0⟩, ⟨1, 2⟩, ⟨2, 0⟩]

/-- In the tangle a utility reaches the adapter and may depend on it; only the
utilities, which are tolerated on their rank, stand on a rejected edge's path. -/
theorem legal_along_paths_tangle :
    let groups := [utility 0, utility 1, adapter 2]
    let a := ofGraph tangle groups .standard
    (groups.map Group.id).Nodup ∧ TransGen a.admitted.Adj 0 2 ∧
      LayerPolicy.standard.isLegal (utility 0).layer (adapter 2).layer ∧
      ∃ r ∈ a.rejected, r.reason = .cycleAvoidance [0, 1] ∧
        ∃ rank, ∀ x ∈ [0, 1], ∃ g ∈ groups, g.id = x ∧ LayerPolicy.standard.rank g.layer = rank ∧
          g.layer ∈ LayerPolicy.standard.sameRankLayers := by
  have hd : ([utility 0, utility 1, adapter 2].map Group.id).Nodup := by decide
  have h := legal_along_paths tangle .standard hd
  have hpath : TransGen (ofGraph tangle [utility 0, utility 1, adapter 2] .standard).admitted.Adj 0 2 :=
    .head (b := 1) (by decide) (.single (by decide))
  have hr : ⟨⟨1, 0⟩, 1, .cycleAvoidance [0, 1]⟩ ∈
      (ofGraph tangle [utility 0, utility 1, adapter 2] .standard).rejected := by decide
  exact ⟨hd, hpath, h.1 (utility 0) (by simp) (adapter 2) (by simp) hpath,
    _, hr, rfl, h.2.1 _ hr _ rfl⟩

end Layering.Admission
