import Layering.Proofs.Admission.Offer

/-!
# Priority among edges

An edge gives way to earlier edges only: it is admitted unless the edges admitted
before it lead from its target back to its source
(`Admission.admitted_iff_no_earlier_path`). So no legal edge can be added to the
admitted ones without closing a cycle.
-/

namespace Layering.Admission

open Relation (ReflTransGen TransGen)

variable {raw : Graph} {groups : List Group} {policy : LayerPolicy} {c : Candidate}
  {pre post : List Candidate} {x y : GroupId}

/-- An edge that is admitted in the end and precedes `e` in the order of offers. -/
def Earlier (raw : Graph) (groups : List Group) (policy : LayerPolicy) (e : Edge)
    (x y : GroupId) : Prop :=
  (ofGraph raw groups policy).admitted.Adj x y ∧ Precedes groups policy ⟨x, y⟩ e

/-- An admitted edge is a legal edge of the raw graph between listed groups. -/
theorem exists_of_adj_ofGraph (h : (ofGraph raw groups policy).admitted.Adj x y) :
    ∃ c ∈ candidates raw groups policy, c.edge = ⟨x, y⟩ ∧
      policy.isLegal c.sourceLayer c.targetLayer := by
  have hl : ∀ c ∈ candidates raw groups policy, c.edge.source ≠ c.edge.target := fun c hc =>
    (adj_of_mem_candidates hc).ne
  obtain ⟨pre, c, post, hcs, he, hr⟩ :=
    (exists_split_of_adj hl h).resolve_left (not_adj_start groups x y)
  have hc : c ∈ candidates raw groups policy := by simp [hcs]
  obtain ⟨hs, ht⟩ := ends_of_mem_candidates hc
  refine ⟨c, hc, he.symm, ((rejection?_eq_none_iff ?_ ?_).1 hr).1⟩
  · exact mem_nodes_offers (mem_nodes_start.2 hs) pre
  · exact mem_nodes_offers (mem_nodes_start.2 ht) pre

/-- The edges admitted when `c` is offered are those that precede it. -/
theorem earlier_iff (hd : (groups.map Group.id).Nodup) (hp : policy.admissionOrder.Nodup)
    (hcs : candidates raw groups policy = pre ++ c :: post) :
    Earlier raw groups policy c.edge x y ↔ (offers policy (start groups) pre).admitted.Adj x y := by
  have ho : Orderly (pre ++ c :: post) := hcs ▸ orderly_candidates hd hp
  have hpw : (candidates raw groups policy).Pairwise fun c d =>
      Precedes groups policy c.edge d.edge := precedes_candidates hd hp
  rw [hcs, List.pairwise_append, List.pairwise_cons] at hpw
  obtain ⟨-, ⟨hpost, -⟩, hpre⟩ := hpw
  rw [Earlier, ofGraph_eq_offers, hcs, adj_earlier_iff ho (not_adj_start groups)]
  refine and_congr_right fun h => ⟨fun hlt => ?_, fun hm => ?_⟩
  · obtain ⟨d, hd, he⟩ := (adj_of_adj_offers ho.ne h).resolve_left (not_adj_start groups x y)
    rw [he] at hlt ⊢
    rcases List.mem_append.1 hd with hd | hd
    · exact List.mem_map_of_mem hd
    · rcases List.mem_cons.1 hd with rfl | hd
      · exact absurd hlt (Precedes.irrefl _)
      · exact absurd hlt (hpost d hd).asymm
  · obtain ⟨d, hd, he⟩ := List.mem_map.1 hm
    exact he ▸ hpre d hd c (List.mem_cons_self ..)

/-- A legal edge is admitted unless earlier edges lead back from its target. -/
theorem adj_ofGraph_iff (hd : (groups.map Group.id).Nodup) (hp : policy.admissionOrder.Nodup)
    (hc : c ∈ candidates raw groups policy) (hl : policy.isLegal c.sourceLayer c.targetLayer) :
    (ofGraph raw groups policy).admitted.Adj c.edge.source c.edge.target ↔
      ¬ ReflTransGen (Earlier raw groups policy c.edge) c.edge.target c.edge.source := by
  obtain ⟨pre, post, hcs⟩ := List.append_of_mem hc
  have he : Earlier raw groups policy c.edge = (offers policy (start groups) pre).admitted.Adj := by
    ext x y
    exact earlier_iff hd hp hcs
  obtain ⟨hs, ht⟩ := ends_of_mem_candidates hc
  rw [ofGraph_eq_offers, hcs, adj_iff_of_split (hcs ▸ orderly_candidates hd hp)
    (not_adj_start groups _ _), rejection?_eq_none_iff (mem_nodes_offers (mem_nodes_start.2 hs) pre)
    (mem_nodes_offers (mem_nodes_start.2 ht) pre), he]
  exact and_iff_right hl

/-- A legal edge that is not admitted is recorded with a path of earlier edges
that it would have closed. -/
theorem exists_path_of_not_adj (hd : (groups.map Group.id).Nodup)
    (hp : policy.admissionOrder.Nodup) (hc : c ∈ candidates raw groups policy)
    (hl : policy.isLegal c.sourceLayer c.targetLayer)
    (hn : ¬ (ofGraph raw groups policy).admitted.Adj c.edge.source c.edge.target) :
    ∃ path, (ofGraph raw groups policy).rejected.filter (·.edge = c.edge) =
        [⟨c.edge, c.weight, .cycleAvoidance path⟩] ∧
      Leads (Earlier raw groups policy c.edge) c.edge.target c.edge.source path ∧ path.Nodup := by
  obtain ⟨pre, post, hcs⟩ := List.append_of_mem hc
  have ho : Orderly (pre ++ c :: post) := hcs ▸ orderly_candidates hd hp
  rw [ofGraph_eq_offers, hcs, adj_iff_of_split ho (not_adj_start groups _ _), rejection?, if_pos hl,
    Option.map_eq_none_iff, ← ne_eq, Option.ne_none_iff_exists'] at hn
  obtain ⟨path, hpath⟩ := hn
  obtain ⟨hleads, hnodup⟩ := Graph.leads_of_path? hpath
  refine ⟨path, ?_, hleads.imp fun _ _ => (earlier_iff hd hp hcs).2, hnodup⟩
  rw [ofGraph_eq_offers, hcs, rejected_of_split ho rfl, rejection?, if_pos hl, hpath]
  rfl

/-- An edge rejected for a cycle is a legal one, recorded with a path of admitted
edges from its target to its source. -/
theorem exists_of_mem_rejected {r : RejectedEdge} {path : List GroupId}
    (hr : r ∈ (ofGraph raw groups policy).rejected) (hp : r.reason = .cycleAvoidance path) :
    ∃ c ∈ candidates raw groups policy, r.edge = c.edge ∧
      policy.isLegal c.sourceLayer c.targetLayer ∧
      Leads (ofGraph raw groups policy).admitted.Adj r.edge.target r.edge.source path := by
  obtain ⟨pre, c, post, hcs, hw, hrej⟩ :=
    (exists_split_of_mem_rejected hr).resolve_left List.not_mem_nil
  have he : r.edge = c.edge := congrArg WeightedEdge.edge hw
  rw [hp, rejection?] at hrej
  split at hrej
  · next hl =>
    obtain ⟨q, hpath, hq⟩ := Option.map_eq_some_iff.1 hrej
    cases hq
    refine ⟨c, by simp [hcs], he, hl, ?_⟩
    rw [he, ofGraph_eq_offers, hcs, offers_append]
    exact (Graph.leads_of_path? hpath).1.imp fun _ _ h => adj_offers_of_adj h (c :: post)
  · cases hrej

/-- An edge rejected for a cycle would still close one in the end. -/
theorem reach_of_mem_rejected {r : RejectedEdge} (hr : r ∈ (ofGraph raw groups policy).rejected)
    (hc : r.isCycleAvoidance) : r.edge.source ≠ r.edge.target ∧
      (ofGraph raw groups policy).admitted.Reach r.edge.target r.edge.source := by
  obtain ⟨path, hp⟩ := RejectedEdge.isCycleAvoidance_iff.1 hc
  obtain ⟨c, hcand, he, -, hleads⟩ := exists_of_mem_rejected hr hp
  exact ⟨he ▸ (adj_of_mem_candidates hcand).ne, hleads.reflTransGen⟩

/-- A legal edge is admitted if and only if no path of earlier admitted edges leads
from its target to its source, and is recorded with such a path otherwise. The
admitted edges are legal and close no cycle, and any other legal edge would. -/
theorem admitted_iff_no_earlier_path (raw : Graph) {groups : List Group} {policy : LayerPolicy}
    (hd : (groups.map Group.id).Nodup) (hp : policy.validate = .ok ()) :
    (∀ s ∈ groups, ∀ t ∈ groups, ∀ w, raw.weight? ⟨s.id, t.id⟩ = some w →
      policy.isLegal s.layer t.layer →
        ((ofGraph raw groups policy).admitted.Adj s.id t.id ↔
          ¬ ReflTransGen (Earlier raw groups policy ⟨s.id, t.id⟩) t.id s.id) ∧
        (¬ (ofGraph raw groups policy).admitted.Adj s.id t.id →
          ∃ path, (ofGraph raw groups policy).rejected.filter (·.edge = ⟨s.id, t.id⟩) =
              [⟨⟨s.id, t.id⟩, w, .cycleAvoidance path⟩] ∧
            Leads (Earlier raw groups policy ⟨s.id, t.id⟩) t.id s.id path ∧ path.Nodup)) ∧
      (ofGraph raw groups policy).admitted.Acyclic ∧
      (∀ x y, (ofGraph raw groups policy).admitted.Adj x y → ∃ s ∈ groups, ∃ t ∈ groups,
        s.id = x ∧ t.id = y ∧ raw.Adj x y ∧ policy.isLegal s.layer t.layer) ∧
      ∀ r ∈ (ofGraph raw groups policy).rejected, r.isCycleAvoidance →
        TransGen ((ofGraph raw groups policy).admitted.addEdge r.edge r.weight).Adj
          r.edge.source r.edge.source := by
  have hp := LayerPolicy.validate_eq_ok_iff.1 hp
  refine ⟨fun s hs t ht w hw hl => ?_, acyclic_ofGraph raw groups policy, fun x y h => ?_,
    fun r hr hc => ?_⟩
  · have hc : ⟨⟨s.id, t.id⟩, w, s.layer, t.layer⟩ ∈ candidates raw groups policy :=
      mem_candidates_of_weight? hd hs ht hw
    exact ⟨adj_ofGraph_iff hd hp hc hl, exists_path_of_not_adj hd hp hc hl⟩
  · obtain ⟨c, hc, he, hl⟩ := exists_of_adj_ofGraph h
    obtain ⟨s, hs, t, ht, he', hsl, htl, -⟩ := exists_of_mem_candidates hc
    have hadj := adj_of_mem_candidates hc
    rw [he] at he' hadj
    rw [hsl, htl] at hl
    exact ⟨s, hs, t, ht, congrArg Edge.source he'.symm, congrArg Edge.target he'.symm, hadj, hl⟩
  · obtain ⟨hne, hreach⟩ := reach_of_mem_rejected hr hc
    exact Graph.transGen_addEdge_self hne hreach _

/-- A utility without units. -/
def utility (id : GroupId) : Group := .empty id ⟨.infrastructure, "utilities"⟩

/-- An adapter without units. -/
def adapter (id : GroupId) : Group := .empty id ⟨.adapters, "drivers"⟩

/-- Three edges in a ring. -/
def ring : Graph := .ofEdges [⟨0, 1⟩, ⟨1, 2⟩, ⟨2, 0⟩]

/-- In a ring of utilities, the last edge gives way to those before it. -/
theorem ring_last_not_admitted :
    let a := ofGraph ring [utility 0, utility 1, utility 2] .standard
    let earlier := Earlier ring [utility 0, utility 1, utility 2] .standard ⟨2, 0⟩
    ¬ a.admitted.Adj 2 0 ∧
      ∃ path, a.rejected.filter (·.edge = ⟨2, 0⟩) = [⟨⟨2, 0⟩, 1, .cycleAvoidance path⟩] ∧
        Leads earlier 0 2 path ∧ path.Nodup := by
  have hd : ([utility 0, utility 1, utility 2].map Group.id).Nodup := by decide
  have hp : LayerPolicy.standard.validate = .ok () := rfl
  have hn : ¬ (ofGraph ring [utility 0, utility 1, utility 2] .standard).admitted.Adj 2 0 := by
    decide
  have h := (admitted_iff_no_earlier_path ring hd hp).1
  exact ⟨hn, (h (utility 2) (by simp) (utility 0) (by simp) 1 (by decide) (by decide)).2 hn⟩

end Layering.Admission
