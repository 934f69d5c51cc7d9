import Layering.Analysis
import Layering.Proofs.Admission.Offer
import Layering.Proofs.Graph.Cycle
import Layering.Proofs.Projection
import Mathlib.Algebra.GroupWithZero.Nat

/-!
# Reports on corpora

A report accounts for the dependencies of a corpus (`Report.Accounts`): each edge
between groups is admitted or rejected, once and with its weight, and the totals
are those of the lists. What is admitted has no cycle.

* `Analysis.run_eq_ok_iff`: when there is a report;
* `Analysis.run_cases`: what that depends on;
* `Analysis.accounts_of_run`: every report accounts for its edges;
* `Analysis.admitted_has_no_cycle`: no report has residual cycles.
-/

namespace Layering

namespace OrdMap

variable {κ : Type} [LT κ] [DecidableLT κ]

theorem sum_alterList (k : κ) (n : Nat) (l : List (κ × Nat)) :
    ((alterList k (fun v => v.getD 0 + n) l).map Prod.snd).sum = (l.map Prod.snd).sum + n := by
  induction l with
  | nil => simp [alterList]
  | cons e l ih =>
    unfold alterList
    split
    · simp
      omega
    · split
      · rw [List.map_cons, List.sum_cons, ih, List.map_cons, List.sum_cons]
        omega
      · simp
        omega

/-- A change by `n` at one key changes the total by `n`. -/
theorem sum_entries_alter [StrictOrder κ] (m : OrdMap κ Nat) (k : κ) (n : Nat) :
    ((m.alter k fun v => v.getD 0 + n).entries.map Prod.snd).sum =
      (m.entries.map Prod.snd).sum + n := sum_alterList k n m.entries

end OrdMap

/-- A configuration is valid if its policy is and it knows headers. -/
theorem AnalysisConfig.validate_eq_ok_iff {c : AnalysisConfig} :
    c.validate = .ok () ↔ c.layers.validate = .ok () ∧ c.resolution.headerExtensions ≠ [] := by
  unfold validate
  cases c.layers.validate with
  | error e => simp [bind, Except.bind]
  | ok u =>
    cases c.resolution.headerExtensions with
    | nil => simp [bind, Except.bind, throw, throwThe, MonadExceptOf.throw]
    | cons e es => simp [bind, Except.bind, pure, Except.pure]

/-- An edge is rejected for one of the two reasons. -/
theorem RejectedEdge.isCycleAvoidance_eq_not (r : RejectedEdge) :
    r.isCycleAvoidance = !r.isLayerIllegal := by
  unfold isCycleAvoidance isLayerIllegal
  cases r.reason <;> rfl

theorem Admission.length_rejected (a : Admission) :
    a.rejected.length = a.layerIllegalCount + a.cycleAvoidanceCount := by
  rw [layerIllegalCount, cycleAvoidanceCount, List.length_eq_countP_add_countP]
  congr 1
  refine List.countP_congr fun r _ => ?_
  simp [RejectedEdge.isCycleAvoidance_eq_not]

theorem Graph.length_weightedEdges (g : Graph) : g.weightedEdges.length = g.edgeCount :=
  List.length_map _

/-- A report loses no edge and invents none, and its totals are those of its
lists. -/
structure Report.Accounts (r : Report) : Prop where
  /-- The edges admitted and rejected are the raw edges, with their weights. -/
  edges : (r.admittedEdges ++ r.rejectedEdges.map RejectedEdge.weighted).Perm r.rawEdges
  /-- No edge is admitted or rejected twice, and none is both. -/
  once : ((r.admittedEdges ++ r.rejectedEdges.map RejectedEdge.weighted).map WeightedEdge.edge).Nodup
  rawEdges : r.summary.rawEdges = r.rawEdges.length
  admittedEdges : r.summary.admittedEdges = r.admittedEdges.length
  rejectedEdges : r.summary.rejectedEdges = r.rejectedEdges.length
  total : r.summary.rawEdges = r.summary.admittedEdges + r.summary.rejectedEdges
  layerIllegal : r.summary.rejections.layerIllegal = r.rejectedEdges.countP (·.isLayerIllegal)
  cycleAvoidance :
    r.summary.rejections.cycleAvoidance = r.rejectedEdges.countP (·.isCycleAvoidance)
  reasons : r.summary.rejectedEdges =
    r.summary.rejections.layerIllegal + r.summary.rejections.cycleAvoidance
  unresolvedReferences :
    r.summary.rejections.unresolvedReferences = r.unresolvedReferences.length
  groups : r.summary.groups = r.groups.length
  groupsByLayer : (r.summary.groupsByLayer.entries.map Prod.snd).sum = r.summary.groups
  groupsOfLayer : ∀ l, (r.summary.groupsByLayer.get? l).getD 0 = r.groups.countP (·.layer = l)
  rawCycles : r.summary.rawCycles = r.cycleReport.components.length
  circularEdges : r.summary.circularEdges = r.cycleReport.circularEdges.size

namespace Analysis

variable {corpus : Corpus} {config : AnalysisConfig} {a : Analysis}

/-! ## Groups by layer -/

theorem sum_countByLayer (groups : List Group) :
    ((countByLayer groups).entries.map Prod.snd).sum = groups.length := by
  have h : ∀ (gs : List Group) (m : OrdMap Layer Nat),
      ((gs.foldl (fun m g => m.alter g.layer fun n => n.getD 0 + 1) m).entries.map Prod.snd).sum =
        (m.entries.map Prod.snd).sum + gs.length := by
    intro gs
    induction gs with
    | nil => exact fun _ => rfl
    | cons g gs ih =>
      intro m
      rw [List.foldl_cons, ih, OrdMap.sum_entries_alter, List.length_cons]
      omega
  exact (h groups .empty).trans (Nat.zero_add _)

theorem get?_countByLayer (groups : List Group) (l : Layer) :
    ((countByLayer groups).get? l).getD 0 = groups.countP (·.layer = l) := by
  have h : ∀ (gs : List Group) (m : OrdMap Layer Nat),
      ((gs.foldl (fun m g => m.alter g.layer fun n => n.getD 0 + 1) m).get? l).getD 0 =
        (m.get? l).getD 0 + gs.countP (·.layer = l) := by
    intro gs
    induction gs with
    | nil => exact fun _ => rfl
    | cons g gs ih =>
      intro m
      rw [List.foldl_cons, ih, OrdMap.get?_alter, List.countP_cons]
      by_cases hl : l = g.layer
      · rw [if_pos hl, Option.getD_some, hl]
        simp
        omega
      · rw [if_neg hl]
        simp [Ne.symm hl]
  exact (h groups .empty).trans (Nat.zero_add _)

/-! ## Runs -/

/-- There is a report if the configuration is valid and its rules compile. -/
theorem run_eq_ok_iff : run corpus config = .ok a ↔ config.validate = .ok () ∧
    ∃ classifier, config.rules.compile = .ok classifier ∧ a = build corpus config classifier := by
  unfold run
  cases config.validate with
  | error e => simp [bind, Except.bind]
  | ok u =>
    cases config.rules.compile with
    | error e => simp [bind, Except.bind]
    | ok classifier => simp [bind, Except.bind, pure, Except.pure, eq_comm]

/-- Configurations that differ neither in their rules nor in whether they are valid fail
with the same error, or agree on the classifier. -/
theorem run_cases (corpus : Corpus) {c d : AnalysisConfig} (hvalidate : c.validate = d.validate)
    (hrules : c.rules = d.rules) :
    (∃ e, run corpus c = .error e ∧ run corpus d = .error e) ∨
      ∃ classifier, run corpus c = .ok (build corpus c classifier) ∧
        run corpus d = .ok (build corpus d classifier) := by
  unfold run
  rw [hvalidate, hrules]
  cases d.validate with
  | error e => exact .inl ⟨e, rfl, rfl⟩
  | ok _ =>
    cases d.rules.compile with
    | error e => exact .inl ⟨e, rfl, rfl⟩
    | ok classifier => exact .inr ⟨classifier, rfl, rfl⟩

theorem perm_build (corpus : Corpus) (classifier : Classifier)
    (hp : config.layers.admissionOrder.Nodup) :
    ((build corpus config classifier).report.admittedEdges ++
        (build corpus config classifier).report.rejectedEdges.map RejectedEdge.weighted).Perm
      (build corpus config classifier).report.rawEdges :=
  Admission.perm_decided_ofGraph (fun _ hx => UnitDependencies.mem_nodes_project.1 hx)
    Grouping.nodup_map_id hp

/-- A report accounts for the dependencies between the groups of its corpus. -/
theorem accounts_of_run (h : run corpus config = .ok a) : a.report.Accounts := by
  obtain ⟨hv, classifier, -, rfl⟩ := run_eq_ok_iff.1 h
  have hp := LayerPolicy.validate_eq_ok_iff.1 (AnalysisConfig.validate_eq_ok_iff.1 hv).1
  have hperm := perm_build corpus classifier hp
  have hraw : (build corpus config classifier).report.rawEdges.length =
      (build corpus config classifier).report.summary.rawEdges := Graph.length_weightedEdges _
  have hadmitted : (build corpus config classifier).report.admittedEdges.length =
      (build corpus config classifier).report.summary.admittedEdges := Graph.length_weightedEdges _
  have hlen := hperm.length_eq
  rw [List.length_append, List.length_map, hraw, hadmitted] at hlen
  exact
    { edges := hperm
      once := (hperm.map _).nodup_iff.2 (Graph.nodup_edge_weightedEdges _)
      rawEdges := hraw.symm
      admittedEdges := hadmitted.symm
      rejectedEdges := rfl
      total := hlen.symm
      layerIllegal := rfl
      cycleAvoidance := rfl
      reasons := Admission.length_rejected _
      unresolvedReferences := rfl
      groups := rfl
      groupsByLayer := sum_countByLayer _
      groupsOfLayer := get?_countByLayer _
      rawCycles := rfl
      circularEdges := rfl }

/-- Two utilities that refer to each other, and data that refers to one of them. -/
def sampleCorpus : Corpus where
  units := [
    .ofReferences "log/a.h" ["net/b.h"],
    .ofReferences "net/b.h" ["a.h", "d.h"],
    .ofReferences "term.c" ["log/a.h"]]
  sound := by decide +kernel

/-- Rules that put each unit of the sample into a group of its own. -/
def sampleConfig : AnalysisConfig where
  rules := { RuleSet.empty with
    layerRules := [⟨.contains ["term"], .entities⟩]
    responsibilityRules := [⟨.contains ["net"], "networking"⟩] }
  layers := .standard
  resolution := .standard
  transitiveDepthLimit := 16

/-- Of the edges of the sample, one is admitted, one would close a cycle, and two
go against the layers. -/
theorem accounts_of_run_sample : ∃ a, run sampleCorpus sampleConfig = .ok a ∧ a.report.Accounts ∧
    a.report.summary.admittedEdges = 1 ∧
    a.report.summary.rejections = ⟨1, 2, 1⟩ := by
  have h : run sampleCorpus sampleConfig = .ok (build sampleCorpus sampleConfig _) := rfl
  refine ⟨_, h, accounts_of_run h, ?_⟩
  decide +kernel

/-- What is admitted has no directed cycle, whatever the graph, the groups and the
policy; so no report has residual cycles. -/
theorem admitted_has_no_cycle :
    (∀ (raw : Graph) (groups : List Group) (policy : LayerPolicy),
      (Admission.ofGraph raw groups policy).admitted.Acyclic ∧
        (Admission.ofGraph raw groups policy).admitted.cycles.components = []) ∧
      ∀ (corpus : Corpus) (config : AnalysisConfig) (a : Analysis), run corpus config = .ok a →
        a.report.summary.residualCycles = 0 := by
  refine ⟨fun raw groups policy => ?_, fun corpus config a h => ?_⟩
  · have hg := Admission.acyclic_ofGraph raw groups policy
    exact ⟨hg, Graph.components_cycles_eq_nil_iff.2 hg⟩
  · obtain ⟨-, classifier, -, rfl⟩ := run_eq_ok_iff.1 h
    exact Graph.count_cycles_eq_zero_iff.2 (Admission.acyclic_ofGraph _ _ _)

end Analysis

end Layering
