import Layering.Proofs.Agreement
import Layering.Proofs.Lookup
import Layering.Proofs.Partition
import Mathlib.Algebra.Group.Action.Defs
import Mathlib.Algebra.Order.BigOperators.Group.List
import Mathlib.Data.List.Perm.Subperm

/-!
# The size of reports

Ids and weights are 32-bit words in documents, and counts are 64-bit words. A report
fits if all its numbers do (`Report.Fits`). Reports of corpora with fewer than `2 ^ 32` units
do, as far as weights go (`Analysis.fits_of_run`): ids are places in lists that are no
longer than the corpus, and all that is counted is an id, a pair of ids, a symbol or a
reference.
-/

namespace Layering

/-- The ends of an edge fit their words. -/
def Edge.Fits (e : Edge) : Prop := e.source < 2 ^ 32 ∧ e.target < 2 ^ 32

instance (e : Edge) : Decidable e.Fits := inferInstanceAs (Decidable (_ ∧ _))

/-- The ends and the weight of an edge fit their words. -/
def WeightedEdge.Fits (e : WeightedEdge) : Prop := e.edge.Fits ∧ e.weight < 2 ^ 32

instance (e : WeightedEdge) : Decidable e.Fits := inferInstanceAs (Decidable (_ ∧ _))

/-- The ids on the path of a cycle fit their words. -/
def RejectReason.Fits : RejectReason → Prop
  | layerIllegal _ _ => True
  | cycleAvoidance path => ∀ n ∈ path, n < 2 ^ 32

instance : (r : RejectReason) → Decidable r.Fits
  | .layerIllegal _ _ => .isTrue trivial
  | .cycleAvoidance path => inferInstanceAs (Decidable (∀ n ∈ path, n < 2 ^ 32))

/-- The numbers of a rejected edge fit their words. -/
def RejectedEdge.Fits (e : RejectedEdge) : Prop :=
  e.edge.Fits ∧ e.weight < 2 ^ 32 ∧ e.reason.Fits

instance (e : RejectedEdge) : Decidable e.Fits := inferInstanceAs (Decidable (_ ∧ _ ∧ _))

/-- The numbers of a group fit their words. -/
structure Group.Fits (g : Group) : Prop where
  id : g.id < 2 ^ 32
  symbolCount : g.symbolCount < 2 ^ 64
  privateSymbolCount : g.privateSymbolCount < 2 ^ 64

/-- The ids in a cycle report fit their words. -/
structure CycleReport.Fits (r : CycleReport) : Prop where
  components : ∀ s ∈ r.components, ∀ n ∈ s, n < 2 ^ 32
  circularEdges : ∀ e ∈ r.circularEdges, e.Fits

/-- Rejection counts fit their words. -/
structure RejectionCounts.Fits (r : RejectionCounts) : Prop where
  unresolvedReferences : r.unresolvedReferences < 2 ^ 64
  layerIllegal : r.layerIllegal < 2 ^ 64
  cycleAvoidance : r.cycleAvoidance < 2 ^ 64

/-- Totals fit their words. -/
structure ReportSummary.Fits (s : ReportSummary) : Prop where
  units : s.units < 2 ^ 64
  groups : s.groups < 2 ^ 64
  groupsByLayer : ∀ e ∈ s.groupsByLayer.entries, e.2 < 2 ^ 64
  directDependencies : s.directDependencies < 2 ^ 64
  transitiveDependencies : s.transitiveDependencies < 2 ^ 64
  rawEdges : s.rawEdges < 2 ^ 64
  admittedEdges : s.admittedEdges < 2 ^ 64
  rejectedEdges : s.rejectedEdges < 2 ^ 64
  rejections : s.rejections.Fits
  rawCycles : s.rawCycles < 2 ^ 64
  circularEdges : s.circularEdges < 2 ^ 64
  residualCycles : s.residualCycles < 2 ^ 64

/-- All numbers of a report fit their words. -/
structure Report.Fits (r : Report) : Prop where
  summary : r.summary.Fits
  groups : ∀ g ∈ r.groups, g.Fits
  rawEdges : ∀ e ∈ r.rawEdges, e.Fits
  admittedEdges : ∀ e ∈ r.admittedEdges, e.Fits
  rejectedEdges : ∀ e ∈ r.rejectedEdges, e.Fits
  cycleReport : r.cycleReport.Fits

/-- A corpus has so few units, symbols and references that words can count them. -/
structure Corpus.Fits (c : Corpus) : Prop where
  units : c.size < 2 ^ 32
  symbols : c.symbols.length < 2 ^ 64
  references : (c.units.map fun u => u.references.length).sum < 2 ^ 64

/-! ## Sets of ids -/

namespace OrdSet

theorem size_le_of_lt {s : OrdSet Nat} {n : Nat} (h : ∀ x ∈ s, x < n) : s.size ≤ n := by
  have hsub : s.toList.Subperm (List.range n) :=
    s.nodup_toList.subperm fun x hx => List.mem_range.2 (h x hx)
  exact hsub.length_le.trans_eq List.length_range

/-- There are at most as many edges as pairs of nodes. -/
theorem size_le_of_ends_lt {s : OrdSet Edge} {n : Nat}
    (h : ∀ e ∈ s, e.source < n ∧ e.target < n) : s.size ≤ n * n := by
  let pairs := (List.range n).flatMap fun a => (List.range n).map (Edge.mk a)
  have hsub : s.toList.Subperm pairs := s.nodup_toList.subperm fun e he => by
    obtain ⟨hs, ht⟩ := h e he
    exact List.mem_flatMap.2 ⟨e.source, List.mem_range.2 hs, List.mem_map_of_mem (List.mem_range.2 ht)⟩
  have hlength : pairs.length = n * n := by simp [pairs, List.length_flatMap]
  exact hsub.length_le.trans_eq hlength

end OrdSet

/-- Sets of ids below a bound have no more elements than pairs of ids. -/
theorem Dependencies.length_flatMap_le {d : Dependencies} {n : Nat} (hlength : d.length = n)
    (h : ∀ i, ∀ x ∈ d.of i, x < n) : (d.flatMap OrdSet.toList).length ≤ n * n := by
  rw [flatMap_toList, List.length_flatMap, hlength]
  have hsum := List.sum_le_card_nsmul ((List.range n).map fun i => (d.of i).toList.length) n
    (List.forall_mem_map.2 fun i _ => OrdSet.size_le_of_lt (h i))
  rwa [List.length_map, List.length_range, smul_eq_mul] at hsum

namespace Graph

variable {g : Graph} {n : Nat}

theorem edgeCount_le (h : ∀ x ∈ g.nodes, x < n) : g.edgeCount ≤ n * n := by
  rw [← length_edges]
  refine OrdSet.size_le_of_ends_lt fun e he => ?_
  have hadj : g.Adj e.source e.target := he
  exact ⟨h _ hadj.mem_nodes.1, h _ hadj.mem_nodes.2⟩

/-- There are at most as many components as nodes. -/
theorem count_cycles_le (h : ∀ x ∈ g.nodes, x < n) : g.cycles.count ≤ n := by
  have hfilter : g.cycles.count ≤ g.components.length := by
    rw [CycleReport.count, components_cycles, List.length_map]
    exact List.length_filter_le ..
  have hflatten : g.components.length ≤ g.components.flatten.length := by
    have hpos : ∀ k ∈ g.components.map List.length, 1 ≤ k :=
      List.forall_mem_map.2 fun c hc => List.length_pos_iff.2 (ne_nil_of_mem_components hc)
    rw [List.length_flatten]
    simpa using List.length_le_sum_of_one_le _ hpos
  have hrange : g.components.flatten.Subperm (List.range n) :=
    (nodup_flatten_components g).subperm fun x hx =>
      List.mem_range.2 (h x (mem_flatten_components.1 hx))
  have hnodes := hrange.length_le
  rw [List.length_range] at hnodes
  omega

theorem circularEdges_lt (h : ∀ x ∈ g.nodes, x < n) :
    ∀ e ∈ g.cycles.circularEdges, e.source < n ∧ e.target < n := fun e he => by
  have hadj := (mem_circularEdges.1 he).1
  exact ⟨h _ hadj.mem_nodes.1, h _ hadj.mem_nodes.2⟩

theorem components_cycles_lt (h : ∀ x ∈ g.nodes, x < n) :
    ∀ s ∈ g.cycles.components, ∀ x ∈ s, x < n := fun s hs x hx => by
  obtain ⟨c, hc, -, rfl⟩ := mem_components_cycles.1 hs
  exact h x (mem_flatten_components.1 (List.mem_flatten.2 ⟨c, hc, OrdSet.mem_ofList.1 hx⟩))

end Graph

/-! ## Reports of runs -/

namespace Grouping

variable {corpus : Corpus} {classifier : Classifier} {config : ResolutionConfig}

/-- There are at most as many groups as units. -/
theorem length_groups_le : (ofCorpus corpus classifier config).groups.length ≤ corpus.size := by
  rw [length_groups]
  have hsub : (members corpus (classifications corpus classifier config)).keys.toList.Subperm
      (classifications corpus classifier config) :=
    OrdSet.nodup_toList _ |>.subperm fun k hk => (mem_keys_members length_classifications).1 hk
  exact hsub.length_le.trans_eq length_classifications

theorem fits_of_mem_groups (h : corpus.Fits) {g : Group}
    (hg : g ∈ (ofCorpus corpus classifier config).groups) : g.Fits := by
  have hpart := partitions_ofCorpus corpus classifier config
  have hsymbols : g.symbolCount < 2 ^ 64 := by
    have hle := List.le_sum_of_mem (List.mem_map_of_mem (f := Group.symbolCount) hg)
    rw [sum_symbolCount] at hle
    exact hle.trans_lt h.symbols
  refine ⟨?_, hsymbols, ?_⟩
  · have hid : g.id ∈ (ofCorpus corpus classifier config).groups.map Group.id :=
      List.mem_map_of_mem hg
    rw [map_id_ofCorpus, List.mem_range] at hid
    exact (hid.trans_le length_groups_le).trans h.units
  · refine Nat.lt_of_le_of_lt ?_ hsymbols
    rw [hpart.privateSymbolCount g hg, hpart.symbolCount g hg]
    exact List.sum_le_sum fun u _ => List.length_filter_le ..

end Grouping

namespace UnitDependencies

variable {r : Resolver} {config : ResolutionConfig} {limit : Nat}

/-- Each reference is unresolved at most once. -/
theorem length_unresolved_le : (ofCorpus r config limit).unresolved.length ≤
    (r.corpus.units.map fun u => u.references.length).sum := by
  rw [ofCorpus, List.length_flatMap]
  exact List.sum_le_sum fun u _ => List.length_filterMap_le ..

end UnitDependencies

namespace Analysis

variable {corpus : Corpus} {config : AnalysisConfig} {a : Analysis} {classifier : Classifier}

theorem le_of_mem_entries_countByLayer {groups : List Group} {e : Layer × Nat}
    (he : e ∈ (countByLayer groups).entries) : e.2 ≤ groups.length := by
  have hget : (countByLayer groups).get? e.1 = some e.2 := OrdMap.mem_entries_iff.1 he
  have hcount := get?_countByLayer groups e.1
  rw [hget, Option.getD_some] at hcount
  rw [hcount]
  exact List.countP_le_length

/-- The nodes of the raw graph are places in the list of groups. -/
theorem lt_of_mem_nodes_raw {x : GroupId} (hx : x ∈ (build corpus config classifier).raw.nodes) :
    x < (build corpus config classifier).report.groups.length := by
  have hid := UnitDependencies.mem_nodes_project.1 hx
  rwa [Grouping.map_id_ofCorpus, List.mem_range] at hid

/-- Every decided edge is a raw edge with its weight. -/
theorem mem_rawEdges (hp : config.layers.admissionOrder.Nodup) {w : WeightedEdge}
    (hw : w ∈ (build corpus config classifier).report.admittedEdges ∨
      ∃ r ∈ (build corpus config classifier).report.rejectedEdges, r.weighted = w) :
    w ∈ (build corpus config classifier).report.rawEdges := by
  rw [← (perm_build corpus classifier hp).mem_iff, List.mem_append, List.mem_map]
  exact hw

/-- The edges that are admitted and those that are rejected are as many as the raw edges. -/
theorem edgeCount_decided (hp : config.layers.admissionOrder.Nodup) :
    (build corpus config classifier).admitted.edgeCount +
        (build corpus config classifier).report.rejectedEdges.length =
      (build corpus config classifier).raw.edgeCount := by
  have hperm := (perm_build corpus classifier hp).length_eq
  rw [List.length_append, List.length_map] at hperm
  have hadmitted : (build corpus config classifier).report.admittedEdges.length =
      (build corpus config classifier).admitted.edgeCount := Graph.length_weightedEdges _
  have hraw : (build corpus config classifier).report.rawEdges.length =
      (build corpus config classifier).raw.edgeCount := Graph.length_weightedEdges _
  rw [← hadmitted, ← hraw, hperm]

/-- The totals of a report count ids, pairs of ids, symbols and references. -/
theorem fits_summary (hp : config.layers.admissionOrder.Nodup) (h : corpus.Fits) :
    (build corpus config classifier).report.summary.Fits := by
  let b := build corpus config classifier
  have hunits : corpus.size < 2 ^ 32 := h.units
  have hgroups : b.report.groups.length ≤ corpus.size := Grouping.length_groups_le
  have hsquare : corpus.size * corpus.size < 2 ^ 64 :=
    Nat.mul_lt_mul'' (c := 2 ^ 32) (d := 2 ^ 32) hunits hunits
  have hnodes : ∀ x ∈ b.raw.nodes, x < corpus.size := fun x hx =>
    (lt_of_mem_nodes_raw hx).trans_le hgroups
  have hdirect : b.dependencies.directCount ≤ corpus.size * corpus.size :=
    Dependencies.length_flatMap_le UnitDependencies.length_direct
      fun i x hx => UnitDependencies.lt_size_of_mem_direct hx
  have htransitive : b.dependencies.transitiveCount ≤ corpus.size * corpus.size :=
    Dependencies.length_flatMap_le UnitDependencies.length_transitive
      fun i x hx => UnitDependencies.lt_size_of_mem_transitive hx
  have hraw : b.raw.edgeCount ≤ corpus.size * corpus.size := Graph.edgeCount_le hnodes
  have hdecided : b.admitted.edgeCount + b.report.rejectedEdges.length = b.raw.edgeCount :=
    edgeCount_decided hp
  have hunresolved : b.dependencies.unresolved.length < 2 ^ 64 :=
    UnitDependencies.length_unresolved_le.trans_lt h.references
  have hrejected : b.report.summary.rejections.layerIllegal +
      b.report.summary.rejections.cycleAvoidance = b.report.rejectedEdges.length :=
    (Admission.length_rejected _).symm
  have hcycles : b.raw.cycles.count ≤ corpus.size := Graph.count_cycles_le hnodes
  have hcircular : b.raw.cycles.circularEdges.size ≤ corpus.size * corpus.size :=
    OrdSet.size_le_of_ends_lt (Graph.circularEdges_lt hnodes)
  have hresidual : b.admitted.cycles.count = 0 :=
    Graph.count_cycles_eq_zero_iff.2 (Admission.acyclic_ofGraph _ _ _)
  exact {
    units := hunits.trans (by decide)
    groups := (hgroups.trans_lt hunits).trans (by decide)
    groupsByLayer := fun e he =>
      (((le_of_mem_entries_countByLayer he).trans hgroups).trans_lt hunits).trans (by decide)
    directDependencies := hdirect.trans_lt hsquare
    transitiveDependencies := htransitive.trans_lt hsquare
    rawEdges := hraw.trans_lt hsquare
    admittedEdges := by
      show b.admitted.edgeCount < 2 ^ 64
      omega
    rejectedEdges := by
      show b.report.rejectedEdges.length < 2 ^ 64
      omega
    rejections := {
      unresolvedReferences := hunresolved
      layerIllegal := by
        show b.report.summary.rejections.layerIllegal < 2 ^ 64
        omega
      cycleAvoidance := by
        show b.report.summary.rejections.cycleAvoidance < 2 ^ 64
        omega }
    rawCycles := (hcycles.trans_lt hunits).trans (by decide)
    circularEdges := hcircular.trans_lt hsquare
    residualCycles := by
      show b.admitted.cycles.count < 2 ^ 64
      omega }

/-- The report of a run fits if the corpus does and the weights of the raw edges do. -/
theorem fits_of_run (h : run corpus config = .ok a) (hc : corpus.Fits)
    (hw : ∀ e ∈ a.report.rawEdges, e.weight < 2 ^ 32) : a.report.Fits := by
  obtain ⟨hv, classifier, -, rfl⟩ := run_eq_ok_iff.1 h
  have hp : config.layers.admissionOrder.Nodup :=
    LayerPolicy.validate_eq_ok_iff.1 (AnalysisConfig.validate_eq_ok_iff.1 hv).1
  have hnodes : ∀ x ∈ (build corpus config classifier).raw.nodes, x < 2 ^ 32 := fun x hx =>
    ((lt_of_mem_nodes_raw hx).trans_le Grouping.length_groups_le).trans hc.units
  have hraw : ∀ e ∈ (build corpus config classifier).report.rawEdges, e.Fits := fun e he => by
    have hadj : (build corpus config classifier).raw.Adj e.edge.source e.edge.target :=
      Graph.adj_of_mem_weightedEdges he
    exact ⟨⟨hnodes _ hadj.mem_nodes.1, hnodes _ hadj.mem_nodes.2⟩, hw e he⟩
  exact {
    summary := fits_summary hp hc
    groups := fun g hg => Grouping.fits_of_mem_groups hc hg
    rawEdges := hraw
    admittedEdges := fun e he => hraw e (mem_rawEdges hp (.inl he))
    rejectedEdges := fun e he => by
      obtain ⟨hedge, hweight⟩ := hraw e.weighted (mem_rawEdges hp (.inr ⟨e, he, rfl⟩))
      refine ⟨hedge, hweight, ?_⟩
      cases hr : e.reason with
      | layerIllegal s t => trivial
      | cycleAvoidance path =>
        obtain ⟨hadj, -, hpath⟩ := Admission.mutual_of_mem_rejected he hr
        exact fun x hx => hnodes x (Graph.Reach.mem_nodes (hpath x hx).1 hadj.mem_nodes.1)
    cycleReport := {
      components := Graph.components_cycles_lt hnodes
      circularEdges := Graph.circularEdges_lt hnodes } }

end Analysis

end Layering
