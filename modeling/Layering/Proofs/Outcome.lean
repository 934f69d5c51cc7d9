import Layering.Proofs.Agreement
import Layering.Proofs.Companion
import Layering.Proofs.Graph.State
import Layering.Proofs.Lookup
import Layering.Proofs.Partition
import Layering.Proofs.Rules

/-!
# Outcomes

A run has a report unless the configuration has a fault, and then the first fault is
the error (`Analysis.fails_run`); the corpus has no say in it. Nothing that the phases
of a run look up is missing (`Analysis.lookupsHit_build`), so the values that stand in
for what is missing are never used.
-/

namespace Layering

/-! ## Faults -/

/-- The first fault of a configuration, and the error that it is reported as. -/
inductive AnalysisConfig.FirstFault (c : AnalysisConfig) : ConfigError → Prop
  /-- The admission order names a layer again, and no other before it. -/
  | repeatedLayer {l : Layer} {pre post : List Layer}
    (horder : c.layers.admissionOrder = pre ++ l :: post) (hpre : pre.Nodup) (hl : l ∈ pre) :
    FirstFault c (.repeatedLayer l)
  /-- The order is in order, but there are no extensions of headers. -/
  | noHeaderExtensions (horder : c.layers.admissionOrder.Nodup)
    (hheaders : c.resolution.headerExtensions = []) : FirstFault c .noHeaderExtensions
  /-- Both are, but a glob of the rules is invalid, and none before it. -/
  | invalidGlob {p : String} {cause : Glob.GlobError} {pre post : List String}
    (horder : c.layers.admissionOrder.Nodup) (hheaders : c.resolution.headerExtensions ≠ [])
    (hglobs : c.rules.globs = pre ++ p :: post) (hpre : ∀ q ∈ pre, ValidGlob q)
    (hp : Glob.parse ruleGlobs p = .error cause) : FirstFault c (.invalidGlob p cause)

/-- A configuration without a fault. -/
structure AnalysisConfig.Faultless (c : AnalysisConfig) : Prop where
  order : c.layers.admissionOrder.Nodup
  headers : c.resolution.headerExtensions ≠ []
  globs : ∀ p ∈ c.rules.globs, ValidGlob p

namespace AnalysisConfig

/-- The error that a configuration leads to before its rules are compiled. -/
def setting? (c : AnalysisConfig) : Option ConfigError :=
  (c.layers.repeatedLayer?.map .repeatedLayer).or
    (if c.resolution.headerExtensions = [] then some .noHeaderExtensions else none)

/-- The error that a configuration leads to. -/
def fault? (c : AnalysisConfig) : Option ConfigError := c.setting?.or (firstGlobError? c.rules.globs)

variable {c : AnalysisConfig} {e : ConfigError}

theorem setting?_eq_none_iff : c.setting? = none ↔
    c.layers.admissionOrder.Nodup ∧ c.resolution.headerExtensions ≠ [] := by
  rw [setting?, Option.or_eq_none_iff, Option.map_eq_none_iff, LayerPolicy.repeatedLayer?_eq_none_iff]
  simp

theorem fault?_eq_none_iff : c.fault? = none ↔ c.Faultless := by
  rw [fault?, Option.or_eq_none_iff, setting?_eq_none_iff, firstGlobError?_eq_none_iff]
  exact ⟨fun ⟨⟨horder, hheaders⟩, hglobs⟩ => ⟨horder, hheaders, hglobs⟩,
    fun h => ⟨⟨h.order, h.headers⟩, h.globs⟩⟩

theorem fault?_eq_some_iff : c.fault? = some e ↔ c.FirstFault e := by
  constructor
  · intro h
    rcases Option.or_eq_some_iff.1 h with hsetting | ⟨hnone, hglob⟩
    · rcases Option.or_eq_some_iff.1 hsetting with hlayer | ⟨hlayers, hheaders⟩
      · obtain ⟨l, hl, rfl⟩ := Option.map_eq_some_iff.1 hlayer
        obtain ⟨pre, post, horder, hpre, hl⟩ := LayerPolicy.repeatedLayer?_eq_some_iff.1 hl
        exact .repeatedLayer horder hpre hl
      · rw [Option.map_eq_none_iff, LayerPolicy.repeatedLayer?_eq_none_iff] at hlayers
        split at hheaders
        · next hnil =>
          obtain rfl := Option.some_inj.1 hheaders
          exact .noHeaderExtensions hlayers hnil
        · cases hheaders
    · obtain ⟨horder, hheaders⟩ := setting?_eq_none_iff.1 hnone
      obtain ⟨pre, p, post, cause, hglobs, hpre, hp, rfl⟩ := firstGlobError?_eq_some_iff.1 hglob
      exact .invalidGlob horder hheaders hglobs hpre hp
  · intro h
    cases h with
    | repeatedLayer horder hpre hl =>
      have hrepeated := LayerPolicy.repeatedLayer?_eq_some_iff.2 ⟨_, _, horder, hpre, hl⟩
      simp [fault?, setting?, hrepeated]
    | noHeaderExtensions horder hheaders =>
      have hlayers := LayerPolicy.repeatedLayer?_eq_none_iff.2 horder
      simp [fault?, setting?, hlayers, hheaders]
    | invalidGlob horder hheaders hglobs hpre hp =>
      have hsetting := setting?_eq_none_iff.2 ⟨horder, hheaders⟩
      have hglob := firstGlobError?_eq_some_iff.2 ⟨_, _, _, _, hglobs, hpre, hp, rfl⟩
      rw [fault?, hsetting, hglob]
      rfl

theorem fails_validate (c : AnalysisConfig) : Fails c.validate c.setting? := by
  have hlayers : Fails c.layers.validate (c.layers.repeatedLayer?.map .repeatedLayer) := by
    unfold LayerPolicy.validate
    cases c.layers.repeatedLayer? with
    | some l => exact .error _
    | none => exact .ok ()
  refine hlayers.bind fun _ => ?_
  cases c.resolution.headerExtensions with
  | nil => exact .error _
  | cons e es => exact .ok ()

end AnalysisConfig

namespace Analysis

variable {corpus : Corpus} {config : AnalysisConfig} {a : Analysis}

/-- A run fails with the first fault of its configuration, and for no other reason. -/
theorem fails_run (corpus : Corpus) (config : AnalysisConfig) :
    Fails (run corpus config) config.fault? :=
  config.fails_validate.bind fun _ => (config.rules.fails_compile).map (build corpus config)

/-! ## Look-ups -/

/-- What the phases of a run look up is there. -/
structure LookupsHit (corpus : Corpus) (config : AnalysisConfig) (a : Analysis) : Prop where
  /-- While headers are paired, every unit has a classification, a companion too. -/
  pairing : ∀ (keys : List Classification) (us : List (UnitId × SourceUnit)),
    keys.length = corpus.size →
    (us.foldl (pair corpus config.resolution) keys).length = corpus.size
  companions : ∀ path i, companion? corpus config.resolution path = some i → i < corpus.size
  /-- A reference means units of the corpus, also where it may mean several. -/
  references : ∀ token, ∀ i ∈ ((Resolver.ofCorpus corpus config.resolution).resolve token).ids,
    (corpus.unit? i).isSome
  /-- Every unit has its dependencies, and depends on units of the corpus. -/
  direct : a.dependencies.direct.length = corpus.size
  transitive : a.dependencies.transitive.length = corpus.size
  members : ∀ i, ∀ x ∈ a.dependencies.all i, x < corpus.size
  /-- Headers that are followed from a unit are units of the corpus, which all are known
  to be headers or not. -/
  headers : ∀ i < corpus.size,
    (UnitDependencies.closure (.ofCorpus corpus config.resolution) config.resolution i).headers.length =
      corpus.size ∧
    ∀ n x, (UnitDependencies.closure (.ofCorpus corpus config.resolution) config.resolution i).Within n x →
      x < corpus.size
  /-- Every unit has a group, which is listed under its id. -/
  groups : ∀ i < corpus.size, ∃ g, a.grouping.unitGroups[i]? = some g.id ∧
    a.grouping.group? g.id = some g
  /-- An edge that is offered has groups at its ends, and a weight. -/
  edges : ∀ s t, a.raw.Adj s t → (Admission.layerOf? a.report.groups s).isSome ∧
    (Admission.layerOf? a.report.groups t).isSome ∧ (a.raw.weight? ⟨s, t⟩).isSome
  /-- The visits of both searches for components have numbers and low-links until the
  search has come to its end. -/
  visits : ∀ g ∈ [a.raw, a.admitted], ∀ s, Graph.Visit.Passed g s →
    ∀ f ∈ s.work, (s.indices.get? f.node).isSome ∧ (s.lowlinks.get? f.node).isSome
  ends : ∀ g ∈ [a.raw, a.admitted],
    (g.nodes.toList.foldl (Graph.Visit.explore g) .initial).work = []
  /-- No search for a path gives up. -/
  paths : ∀ (g : Graph) (s t : GroupId), s ∈ g.nodes → t ∈ g.nodes →
    ((g.path? s t).isSome ↔ g.Reach s t)

/-- The list of classifications keeps its length while headers are paired. -/
theorem length_foldl_pair_of_length {keys : List Classification} (us : List (UnitId × SourceUnit))
    (h : keys.length = corpus.size) :
    (us.foldl (pair corpus config.resolution) keys).length = corpus.size := by
  rw [length_foldl_pair, h]

theorem companion_lt_size {path : String} {i : UnitId}
    (h : companion? corpus config.resolution path = some i) : i < corpus.size := by
  obtain ⟨u, hu⟩ := Grouping.exists_unit_of_companion? h
  exact Corpus.lt_size_of_getElem? hu

/-- Headers lead to units of the corpus from a unit of the corpus. -/
theorem lt_size_of_within {i x : UnitId} {n : Nat} (hi : i < corpus.size)
    (h : (UnitDependencies.closure (.ofCorpus corpus config.resolution) config.resolution i).Within n x) :
    x < corpus.size := by
  induction n generalizing x with
  | zero => exact h ▸ hi
  | succ n ih =>
    rcases h with h | ⟨-, y, -, hx⟩
    · exact ih h
    · have hdirect : x ∈ (UnitDependencies.ofCorpus (.ofCorpus corpus config.resolution)
          config.resolution 0).direct.of y := hx
      exact UnitDependencies.lt_size_of_mem_direct hdirect

theorem exists_group_of_lt_size (classifier : Classifier) {i : UnitId} (hi : i < corpus.size) :
    ∃ g, (build corpus config classifier).grouping.unitGroups[i]? = some g.id ∧
      (build corpus config classifier).grouping.group? g.id = some g := by
  have hpart := Grouping.partitions_ofCorpus corpus classifier config.resolution
  obtain ⟨g, hget, hid, -⟩ := hpart.unit i _ (List.getElem?_eq_getElem hi)
  rw [← hid] at hget
  refine ⟨g, ?_, hget⟩
  have hlt : i < (Grouping.ofCorpus corpus classifier config.resolution).unitGroups.length :=
    hpart.length ▸ hi
  rw [hid, Grouping.groupOf, List.getD_eq_getElem?_getD]
  show (Grouping.ofCorpus corpus classifier config.resolution).unitGroups[i]? = _
  rw [List.getElem?_eq_getElem hlt, Option.getD_some]

/-- Nothing that a run looks up is missing. -/
theorem lookupsHit_build (corpus : Corpus) (config : AnalysisConfig) (classifier : Classifier) :
    LookupsHit corpus config (build corpus config classifier) where
  pairing keys us h := length_foldl_pair_of_length us h
  companions path i h := companion_lt_size h
  references token i hi := by
    rw [Corpus.unit?, List.getElem?_eq_getElem (Resolver.lt_size_of_mem_ids hi)]
    rfl
  direct := UnitDependencies.length_direct
  transitive := UnitDependencies.length_transitive
  members i x hx := by
    rcases List.mem_append.1 hx with hx | hx
    · exact UnitDependencies.lt_size_of_mem_direct hx
    · exact UnitDependencies.lt_size_of_mem_transitive hx
  headers i hi := ⟨List.length_map _, fun n x hx => lt_size_of_within hi hx⟩
  groups i hi := exists_group_of_lt_size classifier hi
  edges s t h := by
    have hlisted : ∀ x ∈ (build corpus config classifier).raw.nodes,
        (Admission.layerOf? (build corpus config classifier).report.groups x).isSome := fun x hx => by
      obtain ⟨g, hg, rfl⟩ := List.mem_map.1 (UnitDependencies.mem_nodes_project.1 hx)
      have hlayer := Admission.layerOf?_of_mem Grouping.nodup_map_id hg
      exact hlayer ▸ rfl
    exact ⟨hlisted s h.mem_nodes.1, hlisted t h.mem_nodes.2, Graph.mem_edges.1 h⟩
  visits g _ s h := h.lookup
  ends g _ := (Graph.Visit.passed_foldl g).2
  paths g s t hs ht := by
    rw [← not_iff_not, Bool.not_eq_true, Option.isSome_eq_false_iff, Option.isNone_iff_eq_none]
    exact Graph.path?_eq_none_iff hs ht

/-- A run has a report if its configuration has no fault: whatever the corpus, nothing
that a phase looks up is missing. Otherwise the first fault is the error. -/
theorem run_outcome (corpus : Corpus) (config : AnalysisConfig) :
    ((∃ a, run corpus config = .ok a) ↔ config.Faultless) ∧
      (∀ e, run corpus config = .error e ↔ config.FirstFault e) ∧
      ∀ a, run corpus config = .ok a → LookupsHit corpus config a := by
  refine ⟨?_, fun e => ?_, fun a h => ?_⟩
  · rw [(fails_run corpus config).exists_ok_iff, AnalysisConfig.fault?_eq_none_iff]
  · rw [fails_run corpus config e, AnalysisConfig.fault?_eq_some_iff]
  · obtain ⟨-, classifier, -, rfl⟩ := run_eq_ok_iff.1 h
    exact lookupsHit_build corpus config classifier

/-- Rules with invalid globs inside a negation, in a later rule and in a responsibility
rule. -/
def nestedConfig : AnalysisConfig where
  rules := { RuleSet.empty with
    layerRules := [
      ⟨.all [.contains ["a"], .not (.any [.glob "*.c", .glob "[a"])], .entities⟩,
      ⟨.glob "b\\", .adapters⟩]
    responsibilityRules := [⟨.glob "[c", "networking"⟩] }
  layers := .standard
  resolution := .standard
  transitiveDepthLimit := 16

/-- The sample has a report, and no corpus has one under the nested rules. -/
theorem run_outcome_nested :
    (∃ a, run sampleCorpus sampleConfig = .ok a ∧ LookupsHit sampleCorpus sampleConfig a) ∧
      run .empty nestedConfig = .error (.invalidGlob "[a" .unclosedClass) := by
  have h : run sampleCorpus sampleConfig = .ok (build sampleCorpus sampleConfig _) := rfl
  have hglobs : nestedConfig.rules.globs = ["*.c"] ++ "[a" :: ["b\\", "[c"] := rfl
  have hvalid : ∀ q ∈ ["*.c"], ValidGlob q := List.forall_mem_singleton.2 ⟨_, rfl⟩
  refine ⟨⟨_, h, (run_outcome _ _).2.2 _ h⟩, ((run_outcome .empty nestedConfig).2.1 _).2 ?_⟩
  exact .invalidGlob (by decide) (by decide) hglobs hvalid rfl

end Analysis

end Layering
