import Layering.Report

/-!
# Analyses

From a corpus and a configuration to a report: references are resolved, units
grouped, their dependencies projected onto the groups, cycles found, and edges
admitted.
-/

namespace Layering

/-- Why there is no report. -/
inductive AnalysisError
  | corpus (cause : CorpusError)
  | config (cause : ConfigError)
  deriving DecidableEq

/-- The text of an error. -/
def AnalysisError.message : AnalysisError → String
  | corpus e => "Corpus error: " ++ e.message
  | config e => "Configuration error: " ++ e.message

/-- A report with the graphs behind it. -/
structure Analysis where
  grouping : Grouping
  dependencies : UnitDependencies
  raw : Graph
  admitted : Graph
  report : Report

namespace Analysis

/-- The number of groups of each layer that has any. -/
def countByLayer (groups : List Group) : OrdMap Layer Nat :=
  groups.foldl (fun m g => m.alter g.layer fun n => n.getD 0 + 1) .empty

/-- The analysis of a corpus under compiled rules. -/
def build (corpus : Corpus) (config : AnalysisConfig) (classifier : Classifier) : Analysis :=
  let grouping := Grouping.ofCorpus corpus classifier config.resolution
  let dependencies := UnitDependencies.ofCorpus (.ofCorpus corpus config.resolution)
    config.resolution config.transitiveDepthLimit.toNat
  let raw := dependencies.project corpus grouping
  let cycles := raw.cycles
  let admission := Admission.ofGraph raw grouping.groups config.layers
  let summary : ReportSummary := {
    units := corpus.size
    groups := grouping.groups.length
    groupsByLayer := countByLayer grouping.groups
    directDependencies := dependencies.directCount
    transitiveDependencies := dependencies.transitiveCount
    rawEdges := raw.edgeCount
    admittedEdges := admission.admitted.edgeCount
    rejectedEdges := admission.rejected.length
    rejections := {
      unresolvedReferences := dependencies.unresolved.length
      layerIllegal := admission.layerIllegalCount
      cycleAvoidance := admission.cycleAvoidanceCount }
    rawCycles := cycles.count
    circularEdges := cycles.circularEdges.size
    residualCycles := admission.admitted.cycles.count }
  { grouping
    dependencies
    raw
    admitted := admission.admitted
    report := {
      summary
      groups := grouping.groups
      rawEdges := raw.weightedEdges
      admittedEdges := admission.admitted.weightedEdges
      rejectedEdges := admission.rejected
      unresolvedReferences := dependencies.unresolved
      cycleReport := cycles } }

/-- The analysis of a corpus. -/
def run (corpus : Corpus) (config : AnalysisConfig) : Except ConfigError Analysis := do
  config.validate
  let classifier ← config.rules.compile
  return build corpus config classifier

end Analysis

/-- The report on a list of units. -/
def analyzeUnits (units : List SourceUnit) (config : AnalysisConfig) : Except AnalysisError Report :=
  match Corpus.ofUnits units with
  | .error e => .error (.corpus e)
  | .ok corpus =>
    match Analysis.run corpus config with
    | .error e => .error (.config e)
    | .ok a => .ok a.report

end Layering
