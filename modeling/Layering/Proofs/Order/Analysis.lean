import Layering.Proofs.Analysis
import Layering.Proofs.Order.Dependency

/-!
# Analyses of reordered units

In strict mode the report on a corpus does not depend on the order of its units
(`Analysis.run_of_perm`): the groups, the graphs and everything that follows from
them are equal, and only the references that mean no unit are listed in another
order.
-/

namespace Layering

/-- Two reports are equal, but for the order of the references that mean no unit
and of the candidates of each. -/
structure Report.SameUpToOrder (a b : Report) : Prop where
  summary : a.summary = b.summary
  groups : a.groups = b.groups
  rawEdges : a.rawEdges = b.rawEdges
  admittedEdges : a.admittedEdges = b.admittedEdges
  rejectedEdges : a.rejectedEdges = b.rejectedEdges
  cycleReport : a.cycleReport = b.cycleReport
  unresolvedReferences : ∃ l, List.Forall₂ UnresolvedReference.Same a.unresolvedReferences l ∧
    l.Perm b.unresolvedReferences

namespace Analysis

variable {σ : Equiv.Perm UnitId} {c d : Corpus} {config : AnalysisConfig} {classifier : Classifier}

/-- The reports are equal because they are made of the number of units, the groups
and their graph, and of what is counted of the dependencies. -/
theorem sameUpToOrder_build (h : Corpus.Renames σ c d) (hmode : config.resolution.mode = .strict)
    (he : Grouping.SourceExtensions config.resolution) :
    (build c config classifier).report.SameUpToOrder (build d config classifier).report := by
  have hgroups : (build c config classifier).grouping.groups =
      (build d config classifier).grouping.groups := (Grouping.groups_eq_of_renames he h).symm
  have hraw : (build c config classifier).raw = (build d config classifier).raw :=
    (UnitDependencies.project_eq_of_renames h hmode he).symm
  have hadmission : Admission.ofGraph (build c config classifier).raw
      (build c config classifier).grouping.groups config.layers =
        Admission.ofGraph (build d config classifier).raw
          (build d config classifier).grouping.groups config.layers := by
    rw [hraw, hgroups]
  have hdirect : (build c config classifier).dependencies.directCount =
      (build d config classifier).dependencies.directCount :=
    (UnitDependencies.directCount_of_renames h hmode).symm
  have htransitive : (build c config classifier).dependencies.transitiveCount =
      (build d config classifier).dependencies.transitiveCount :=
    (UnitDependencies.transitiveCount_of_renames h hmode).symm
  obtain ⟨l, hl, hperm⟩ : ∃ l, List.Forall₂ UnresolvedReference.Same
      (build c config classifier).dependencies.unresolved l ∧
        l.Perm (build d config classifier).dependencies.unresolved :=
    UnitDependencies.unresolved_of_renames h hmode
  have hlength := hl.length_eq.trans hperm.length_eq
  exact
    { summary := by
        simp only [build] at hgroups hraw hadmission hdirect htransitive hlength ⊢
        rw [h.size_eq, hadmission, hgroups, hraw, hdirect, htransitive, hlength]
      groups := hgroups
      rawEdges := congrArg Graph.weightedEdges hraw
      admittedEdges := congrArg (·.admitted.weightedEdges) hadmission
      rejectedEdges := congrArg Admission.rejected hadmission
      cycleReport := congrArg Graph.cycles hraw
      unresolvedReferences := ⟨l, hl, hperm⟩ }

/-- In strict mode an analysis does not depend on the order of the units: it fails
with the same error, or gives the same report. -/
theorem run_of_perm (hperm : c.units.Perm d.units) (hmode : config.resolution.mode = .strict)
    (he : Grouping.SourceExtensions config.resolution) :
    (∃ e, run c config = .error e ∧ run d config = .error e) ∨
      ∃ a b, run c config = .ok a ∧ run d config = .ok b ∧ a.report.SameUpToOrder b.report := by
  obtain ⟨σ, h⟩ := Corpus.exists_renames hperm
  unfold run
  cases config.validate with
  | error e => exact .inl ⟨e, rfl, rfl⟩
  | ok _ =>
    cases config.rules.compile with
    | error e => exact .inl ⟨e, rfl, rfl⟩
    | ok classifier => exact .inr ⟨_, _, rfl, rfl, sameUpToOrder_build h hmode he⟩

/-- Two units of one name, and a unit that refers to that name. -/
def forwardCorpus : Corpus where
  units := [
    .ofReferences "log/a.h" ["net/b.h"],
    .ofReferences "net/a.h" [],
    .ofReferences "net/b.h" ["a.h", "d.h"],
    .ofReferences "term.c" ["log/a.h"]]
  sound := by decide +kernel

/-- The same units from the last to the first. -/
def backwardCorpus : Corpus where
  units := forwardCorpus.units.reverse
  sound := by decide +kernel

/-- The sample configuration in strict mode. -/
def strictConfig : AnalysisConfig :=
  { sampleConfig with resolution := { ResolutionConfig.standard with mode := .strict } }

/-- From the last unit to the first, the candidates of the ambiguous reference are
listed the other way round. -/
theorem run_of_perm_reverse : ∃ a b, run forwardCorpus strictConfig = .ok a ∧
    run backwardCorpus strictConfig = .ok b ∧ a.report.SameUpToOrder b.report ∧
    a.report.unresolvedReferences ≠ b.report.unresolvedReferences := by
  have hf : run forwardCorpus strictConfig = .ok (build forwardCorpus strictConfig _) := rfl
  have hb : run backwardCorpus strictConfig = .ok (build backwardCorpus strictConfig _) := rfl
  have hperm : forwardCorpus.units.Perm backwardCorpus.units := (List.reverse_perm _).symm
  have he : Grouping.SourceExtensions strictConfig.resolution := by decide +kernel
  rcases run_of_perm hperm rfl he with ⟨e, he, -⟩ | ⟨a, b, ha, hb', h⟩
  · cases hf.symm.trans he
  · refine ⟨a, b, ha, hb', h, ?_⟩
    obtain rfl := Except.ok.inj (hf.symm.trans ha)
    obtain rfl := Except.ok.inj (hb.symm.trans hb')
    decide +kernel

end Analysis

end Layering
