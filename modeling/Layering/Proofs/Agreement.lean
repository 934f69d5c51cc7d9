import Layering.Proofs.Admission.Conflict
import Layering.Proofs.Analysis
import Layering.Proofs.Graph.Cycle

/-!
# Cycles and rejections

A report finds the cycles of its raw edges twice: as components, and as paths
that admission comes upon. The two agree (`Report.CyclesAgree`): an edge that is
rejected for a cycle is circular, with its whole path inside one component; and
the edges that are not circular are decided by their layers alone.
-/

namespace Layering

theorem Graph.mem_map_edge_weightedEdges {g : Graph} {e : Edge} :
    e ∈ g.weightedEdges.map WeightedEdge.edge ↔ g.Adj e.source e.target := by
  rw [weightedEdges, List.map_map]
  exact Iff.rfl

namespace Admission

variable {raw : Graph} {groups : List Group} {policy : LayerPolicy} {r : RejectedEdge}
  {path : List GroupId} {x y : GroupId}

theorem adj_raw_of_adj (h : (ofGraph raw groups policy).admitted.Adj x y) : raw.Adj x y :=
  (legalAdj_of_adj h).1

/-- An edge that is rejected for a cycle lies on a cycle of the raw graph with all
of its path. -/
theorem mutual_of_mem_rejected (hr : r ∈ (ofGraph raw groups policy).rejected)
    (hp : r.reason = .cycleAvoidance path) : raw.Adj r.edge.source r.edge.target ∧
      raw.Reach r.edge.target r.edge.source ∧ ∀ x ∈ path, raw.Mutual r.edge.source x := by
  obtain ⟨c, hc, he, -, hleads⟩ := exists_of_mem_rejected hr hp
  have hraw := hleads.imp fun _ _ => adj_raw_of_adj
  have hadj : raw.Adj r.edge.source r.edge.target := he ▸ adj_of_mem_candidates hc
  refine ⟨hadj, hraw.reflTransGen, fun x hx => ?_⟩
  obtain ⟨htx, hxs⟩ := hraw.reflTransGen_of_mem hx
  exact ⟨.head hadj htx, hxs⟩

/-- A legal edge that is not circular is admitted. -/
theorem adj_of_not_circular (hd : (groups.map Group.id).Nodup) (hp : policy.admissionOrder.Nodup)
    (h : LegalAdj raw groups policy x y) (hn : ⟨x, y⟩ ∉ raw.cycles.circularEdges) :
    (ofGraph raw groups policy).admitted.Adj x y := by
  by_contra hadj
  obtain ⟨r, hr, he, path, hpath⟩ := exists_rejected_of_not_adj hd hp h hadj
  obtain ⟨hsrc, htgt, -⟩ := mutual_of_mem_rejected hr hpath
  rw [← he] at hn
  exact hn (Graph.mem_circularEdges.2 ⟨hsrc, htgt⟩)

end Admission

/-- The components of a report and the paths of its rejected edges agree. -/
structure Report.CyclesAgree (r : Report) (policy : LayerPolicy) : Prop where
  /-- An edge that is rejected for a cycle is circular, and its path lies in the one
  component that holds either of its ends. -/
  rejected : ∀ e ∈ r.rejectedEdges, ∀ path, e.reason = .cycleAvoidance path →
    e.edge ∈ r.cycleReport.circularEdges ∧
      ∃ c ∈ r.cycleReport.components, e.edge.source ∈ c ∧ e.edge.target ∈ c ∧
        (∀ x ∈ path, x ∈ c) ∧
        ∀ d ∈ r.cycleReport.components, e.edge.source ∈ d ∨ e.edge.target ∈ d → d = c
  /-- An edge that is not circular is admitted if its layers allow it. -/
  decided : ∀ e ∈ r.rawEdges, e.edge ∉ r.cycleReport.circularEdges →
    ∃ s t, r.group? e.edge.source = some s ∧ r.group? e.edge.target = some t ∧
      (e.edge ∈ r.admittedEdges.map WeightedEdge.edge ↔ policy.isLegal s.layer t.layer)

namespace Analysis

variable {corpus : Corpus} {config : AnalysisConfig} {a : Analysis} {classifier : Classifier}

theorem find?_of_mem {groups : List Group} (hd : (groups.map Group.id).Nodup) {g : Group}
    (hg : g ∈ groups) : groups.find? (·.id = g.id) = some g :=
  find?_eq_some_of_unique hg (by simp) fun _ hu he =>
    List.inj_on_of_nodup_map hd hu hg (of_decide_eq_true he)

/-- The ends of a raw edge are groups of the report. -/
theorem exists_groups_of_mem_rawEdges {e : WeightedEdge}
    (he : e ∈ (build corpus config classifier).report.rawEdges) :
    ∃ s ∈ (build corpus config classifier).report.groups,
      ∃ t ∈ (build corpus config classifier).report.groups,
        s.id = e.edge.source ∧ t.id = e.edge.target := by
  have hadj : (build corpus config classifier).raw.Adj e.edge.source e.edge.target :=
    Graph.adj_of_mem_weightedEdges he
  obtain ⟨s, hs, hse⟩ := List.mem_map.1 (UnitDependencies.mem_nodes_project.1 hadj.mem_nodes.1)
  obtain ⟨t, ht, hte⟩ := List.mem_map.1 (UnitDependencies.mem_nodes_project.1 hadj.mem_nodes.2)
  exact ⟨s, hs, t, ht, hse, hte⟩

theorem rejected_agrees (corpus : Corpus) (config : AnalysisConfig) (classifier : Classifier)
    {e : RejectedEdge} {path : List GroupId}
    (he : e ∈ (build corpus config classifier).report.rejectedEdges)
    (hp : e.reason = .cycleAvoidance path) :
    e.edge ∈ (build corpus config classifier).report.cycleReport.circularEdges ∧
      ∃ c ∈ (build corpus config classifier).report.cycleReport.components,
        e.edge.source ∈ c ∧ e.edge.target ∈ c ∧ (∀ x ∈ path, x ∈ c) ∧
        ∀ d ∈ (build corpus config classifier).report.cycleReport.components,
          e.edge.source ∈ d ∨ e.edge.target ∈ d → d = c := by
  obtain ⟨hadj, hreach, hpath⟩ := Admission.mutual_of_mem_rejected he hp
  have hm : (build corpus config classifier).raw.Mutual e.edge.source e.edge.target :=
    ⟨.single hadj, hreach⟩
  obtain ⟨c, hc, hall⟩ := Graph.exists_mem_components_cycles hadj.ne hadj.mem_nodes.1 hm
  have hs := hall _ ⟨.refl, .refl⟩
  have ht := hall _ hm
  refine ⟨Graph.mem_circularEdges.2 ⟨hadj, hreach⟩, c, hc, hs, ht, fun x hx => hall x (hpath x hx),
    fun d hd => ?_⟩
  rintro (h | h)
  · exact Graph.eq_of_mem_components_cycles hd hc h hs
  · exact Graph.eq_of_mem_components_cycles hd hc h ht

theorem decided_agrees (hv : config.layers.admissionOrder.Nodup) {e : WeightedEdge}
    (he : e ∈ (build corpus config classifier).report.rawEdges)
    (hn : e.edge ∉ (build corpus config classifier).report.cycleReport.circularEdges) :
    ∃ s t, (build corpus config classifier).report.group? e.edge.source = some s ∧
      (build corpus config classifier).report.group? e.edge.target = some t ∧
      (e.edge ∈ (build corpus config classifier).report.admittedEdges.map WeightedEdge.edge ↔
        config.layers.isLegal s.layer t.layer) := by
  have hd : ((build corpus config classifier).report.groups.map Group.id).Nodup :=
    Grouping.nodup_map_id
  obtain ⟨s, hs, t, ht, hse, hte⟩ := exists_groups_of_mem_rawEdges he
  have hmem : e.edge ∈ (build corpus config classifier).report.admittedEdges.map WeightedEdge.edge ↔
      (build corpus config classifier).admitted.Adj e.edge.source e.edge.target :=
    Graph.mem_map_edge_weightedEdges
  refine ⟨s, t, hse ▸ find?_of_mem hd hs, hte ▸ find?_of_mem hd ht, hmem.trans ⟨fun h => ?_,
    fun hl => Admission.adj_of_not_circular hd hv ?_ hn⟩⟩
  · obtain ⟨-, u, hu, v, hv, hue, hve, hl⟩ := Admission.legalAdj_of_adj h
    obtain rfl := List.inj_on_of_nodup_map hd hu hs (hue.trans hse.symm)
    obtain rfl := List.inj_on_of_nodup_map hd hv ht (hve.trans hte.symm)
    exact hl
  · exact ⟨Graph.adj_of_mem_weightedEdges he, s, hs, t, ht, hse, hte, hl⟩

/-- In every report, the components and the rejected edges agree on what lies on a
cycle. -/
theorem cyclesAgree_of_run (h : run corpus config = .ok a) : a.report.CyclesAgree config.layers := by
  obtain ⟨hv, classifier, -, rfl⟩ := run_eq_ok_iff.1 h
  have hp := LayerPolicy.validate_eq_ok_iff.1 (AnalysisConfig.validate_eq_ok_iff.1 hv).1
  exact
    { rejected := fun e he path hpath => rejected_agrees corpus config classifier he hpath
      decided := fun e he hn => decided_agrees hp he hn }

/-- The sample has a cycle of two utilities, and an edge outside of it that its
layers forbid. -/
theorem cyclesAgree_of_run_sample : ∃ a, run sampleCorpus sampleConfig = .ok a ∧
    a.report.CyclesAgree sampleConfig.layers ∧
    (∃ e ∈ a.report.rejectedEdges, e.isCycleAvoidance) ∧
    ∃ e ∈ a.report.rawEdges, e.edge ∉ a.report.cycleReport.circularEdges := by
  have h : run sampleCorpus sampleConfig = .ok (build sampleCorpus sampleConfig _) := rfl
  refine ⟨_, h, cyclesAgree_of_run h, ?_⟩
  decide +kernel

end Analysis

end Layering
