import Layering.Proofs.Lookup
import Layering.Proofs.Partition
import Mathlib.Algebra.BigOperators.Group.List.Basic
import Mathlib.Data.Finset.Prod

/-!
# Weights of group edges

An edge of the raw graph weighs the number of pairs of units, one in each group, of
which the first depends on the second (`UnitDependencies.count_groupEdges`). The
dependencies of units are the edges' weights and the dependencies inside the groups
(`UnitDependencies.totalWeight_project`). So the graph of a report is the projection of
its dependencies (`Analysis.projects_of_run`).
-/

namespace Layering

/-! ## Total weights -/

namespace Graph

/-- The weights of all edges together. -/
def totalWeight (g : Graph) : Nat := (g.weightedEdges.map WeightedEdge.weight).sum

theorem totalWeight_eq (g : Graph) : g.totalWeight = (g.weights.entries.map Prod.snd).sum := by
  rw [totalWeight, weightedEdges, List.map_map]
  rfl

theorem totalWeight_ofNodes (ns : List GroupId) : (ofNodes ns).totalWeight = 0 := by
  rw [totalWeight_eq, weights_ofNodes]
  rfl

theorem totalWeight_addEdge {g : Graph} {e : Edge} (hl : e.source ≠ e.target) (w : Nat) :
    (g.addEdge e w).totalWeight = g.totalWeight + w := by
  rw [totalWeight_eq, totalWeight_eq, addEdge, dif_neg hl]
  exact OrdMap.sum_entries_alter ..

/-- Each edge that is added adds 1 to the total weight, unless it is a loop. -/
theorem totalWeight_foldl_addEdge (es : List Edge) (g : Graph) :
    (es.foldl (·.addEdge · 1) g).totalWeight + es.countP (fun e => e.source = e.target) =
      g.totalWeight + es.length := by
  induction es generalizing g with
  | nil => rfl
  | cons e es ih =>
    have hes := ih (g.addEdge e 1)
    rw [List.foldl_cons, List.countP_cons, List.length_cons]
    by_cases hl : e.source = e.target
    · rw [addEdge_loop _ _ hl] at hes ⊢
      rw [if_pos (decide_eq_true hl)]
      omega
    · rw [totalWeight_addEdge hl] at hes
      rw [if_neg (by simpa using hl)]
      omega

end Graph

/-- The loops among some edges, counted for each group. -/
theorem sum_count_loops {ids : List GroupId} (hids : ids.Nodup) {es : List Edge}
    (h : ∀ e ∈ es, e.source ∈ ids) :
    (ids.map fun i => es.count ⟨i, i⟩).sum = es.countP fun e => e.source = e.target := by
  induction es with
  | nil => simp
  | cons e es ih =>
    have hone : (ids.map fun i => if e == ⟨i, i⟩ then 1 else 0).sum =
        if e.source = e.target then 1 else 0 := by
      rw [List.sum_map_eq_nsmul_single e.source,
        List.count_eq_one_of_mem hids (h e List.mem_cons_self), one_nsmul]
      · refine if_congr ?_ rfl rfl
        rw [beq_iff_eq, eq_comm, Edge.mk.injEq]
        exact and_iff_right rfl
      · rintro i hi -
        exact if_neg fun he => hi (by rw [eq_of_beq he])
    simp only [List.count_cons, List.countP_cons, List.sum_map_add, decide_eq_true_eq]
    rw [ih fun d hd => h d (List.mem_cons_of_mem _ hd), hone]

/-! ## Units of a group -/

/-- The ids of the units of a corpus that are in a group. -/
def Group.unitIds (corpus : Corpus) (g : Group) : Finset UnitId :=
  (corpus.idsWhere (·.path ∈ g.units)).toFinset

theorem Group.mem_unitIds {corpus : Corpus} {g : Group} {i : UnitId} :
    i ∈ g.unitIds corpus ↔ ∃ u, corpus.units[i]? = some u ∧ u.path ∈ g.units := by
  rw [unitIds, List.mem_toFinset, Corpus.mem_idsWhere]
  simp

theorem Group.lt_size_of_mem_unitIds {corpus : Corpus} {g : Group} {i : UnitId}
    (h : i ∈ g.unitIds corpus) : i < corpus.size := by
  obtain ⟨u, hu, -⟩ := mem_unitIds.1 h
  exact Corpus.lt_size_of_getElem? hu

theorem Grouping.Partitions.mem_unitIds_iff {corpus : Corpus} {grouping : Grouping}
    (hp : grouping.Partitions corpus) {g : Group} (hg : g ∈ grouping.groups) {i : UnitId}
    (hi : i < corpus.size) : i ∈ g.unitIds corpus ↔ grouping.groupOf i = g.id := by
  obtain ⟨u, hu⟩ : ∃ u, corpus.units[i]? = some u := ⟨_, List.getElem?_eq_getElem hi⟩
  obtain ⟨h, -, hid, hmem, hpath, honly⟩ := hp.unit i u hu
  have hnodup : (grouping.groups.map Group.id).Nodup := hp.ids ▸ List.nodup_range
  rw [Group.mem_unitIds]
  constructor
  · rintro ⟨v, hv, hvg⟩
    obtain rfl := Option.some_inj.1 (hu.symm.trans hv)
    rw [honly g hg hvg, hid]
  · intro he
    obtain rfl := List.inj_on_of_nodup_map hnodup hmem hg (hid.trans he)
    exact ⟨u, hu, hpath⟩

namespace UnitDependencies

/-! ## Pairs of units -/

/-- The pairs of units, one in each of two groups, of which the first depends on the
second. -/
def between (d : UnitDependencies) (corpus : Corpus) (g h : Group) : Finset (UnitId × UnitId) :=
  (g.unitIds corpus ×ˢ h.unitIds corpus).filter fun p =>
    p.2 ∈ d.direct.of p.1 ∨ p.2 ∈ d.transitive.of p.1

/-- All dependencies of units, each with its unit. -/
def pairs (d : UnitDependencies) (corpus : Corpus) : List (UnitId × UnitId) :=
  (List.range corpus.size).flatMap fun i => (d.all i).map (i, ·)

/-- Dependencies among the units of a corpus, none of them listed twice. -/
structure Among (d : UnitDependencies) (corpus : Corpus) : Prop where
  length_direct : d.direct.length = corpus.size
  length_transitive : d.transitive.length = corpus.size
  nodup : ∀ i, (d.all i).Nodup
  lt_size : ∀ i, ∀ x ∈ d.all i, x < corpus.size

variable {d : UnitDependencies} {corpus : Corpus} {grouping : Grouping} {g h : Group}
  {p : UnitId × UnitId}

theorem among_ofCorpus (corpus : Corpus) (config : ResolutionConfig) (limit : Nat) :
    (ofCorpus (.ofCorpus corpus config) config limit).Among corpus where
  length_direct := UnitDependencies.length_direct
  length_transitive := UnitDependencies.length_transitive
  nodup := nodup_all _ config limit
  lt_size i x hx := by
    rcases mem_all.1 hx with hx | hx
    · exact lt_size_of_mem_direct hx
    · exact lt_size_of_mem_transitive hx

theorem mem_pairs : p ∈ d.pairs corpus ↔ p.1 < corpus.size ∧ p.2 ∈ d.all p.1 := by
  obtain ⟨i, t⟩ := p
  simp [pairs]

theorem groupEdges_eq_map (d : UnitDependencies) (corpus : Corpus) (grouping : Grouping) :
    d.groupEdges corpus grouping =
      (d.pairs corpus).map fun p => ⟨grouping.groupOf p.1, grouping.groupOf p.2⟩ := by
  rw [groupEdges, pairs, Corpus.size, ← Corpus.map_fst_indexed, List.flatMap_map, List.map_flatMap]
  simp only [List.map_map, Function.comp_def]

namespace Among

variable (hd : d.Among corpus)
include hd

theorem nodup_pairs : (d.pairs corpus).Nodup := by
  rw [pairs, List.nodup_flatMap]
  refine ⟨fun i _ => (hd.nodup i).map (Prod.mk_right_injective i), ?_⟩
  refine List.nodup_range.imp fun {i j} hij p hi hj => hij ?_
  obtain ⟨t, -, rfl⟩ := List.mem_map.1 hi
  obtain ⟨t', -, heq⟩ := List.mem_map.1 hj
  exact (congrArg Prod.fst heq).symm

/-- There are as many pairs as direct and further dependencies. -/
theorem length_pairs : (d.pairs corpus).length = d.directCount + d.transitiveCount := by
  rw [directCount, transitiveCount, Dependencies.flatMap_toList, Dependencies.flatMap_toList,
    hd.length_direct, hd.length_transitive, pairs, List.length_flatMap, List.length_flatMap,
    List.length_flatMap, ← List.sum_map_add]
  simp only [List.length_map, all, List.length_append]

/-- An edge between groups stands for as many dependencies as there are pairs of units. -/
theorem count_groupEdges (hp : grouping.Partitions corpus) (hg : g ∈ grouping.groups)
    (hh : h ∈ grouping.groups) :
    (d.groupEdges corpus grouping).count ⟨g.id, h.id⟩ = (d.between corpus g h).card := by
  have hpairs : ∀ p ∈ d.pairs corpus,
      (⟨grouping.groupOf p.1, grouping.groupOf p.2⟩ : Edge) = ⟨g.id, h.id⟩ ↔
        p.1 ∈ g.unitIds corpus ∧ p.2 ∈ h.unitIds corpus := by
    intro p hp'
    obtain ⟨h₁, h₂⟩ := mem_pairs.1 hp'
    rw [hp.mem_unitIds_iff hg h₁, hp.mem_unitIds_iff hh (hd.lt_size _ _ h₂), Edge.mk.injEq]
  have hbetween : d.between corpus g h = ((d.pairs corpus).filter fun p =>
      p.1 ∈ g.unitIds corpus ∧ p.2 ∈ h.unitIds corpus).toFinset := by
    ext p
    rw [between, Finset.mem_filter, Finset.mem_product, List.mem_toFinset, List.mem_filter,
      mem_pairs, decide_eq_true_eq, mem_all]
    constructor
    · rintro ⟨hmem, hall⟩
      exact ⟨⟨Group.lt_size_of_mem_unitIds hmem.1, hall⟩, hmem⟩
    · rintro ⟨⟨-, hall⟩, hmem⟩
      exact ⟨hmem, hall⟩
  rw [hbetween, List.toFinset_card_of_nodup (hd.nodup_pairs.filter _), groupEdges_eq_map,
    List.count_eq_countP, List.countP_map, ← List.countP_eq_length_filter]
  refine List.countP_congr fun p hp' => ?_
  rw [Function.comp_apply, beq_iff_eq, decide_eq_true_eq]
  exact hpairs p hp'

/-- Each dependency adds to the weight of an edge, unless it is inside a group. -/
theorem totalWeight_project {classifier : Classifier} {config : ResolutionConfig} :
    (d.project corpus (.ofCorpus corpus classifier config)).totalWeight +
        ((Grouping.ofCorpus corpus classifier config).groups.map fun g =>
          (d.between corpus g g).card).sum =
      d.directCount + d.transitiveCount := by
  have hp := Grouping.partitions_ofCorpus corpus classifier config
  have hsource : ∀ e ∈ d.groupEdges corpus (.ofCorpus corpus classifier config),
      e.source ∈ (Grouping.ofCorpus corpus classifier config).groups.map Group.id := by
    intro e he
    have hne := ne_nil_of_mem_groupEdges he
    rw [groupEdges_eq_map] at he
    obtain ⟨p, -, rfl⟩ := List.mem_map.1 he
    exact Grouping.groupOf_mem hne p.1
  have hloops : (d.groupEdges corpus (.ofCorpus corpus classifier config)).countP
        (fun e => e.source = e.target) =
      ((Grouping.ofCorpus corpus classifier config).groups.map fun g =>
        (d.between corpus g g).card).sum := by
    rw [← sum_count_loops Grouping.nodup_map_id hsource, List.map_map]
    exact congrArg List.sum (List.map_congr_left fun g hg => hd.count_groupEdges hp hg hg)
  have hlength : (d.groupEdges corpus (.ofCorpus corpus classifier config)).length =
      d.directCount + d.transitiveCount := by
    rw [groupEdges_eq_map, List.length_map, hd.length_pairs]
  have hfold := Graph.totalWeight_foldl_addEdge
    (d.groupEdges corpus (.ofCorpus corpus classifier config))
    (.ofNodes ((Grouping.ofCorpus corpus classifier config).groups.map Group.id))
  rw [hloops, hlength, Graph.totalWeight_ofNodes, Nat.zero_add] at hfold
  exact hfold

end Among

end UnitDependencies

/-! ## Analyses -/

/-- The raw graph is the projection of the dependencies of units onto the groups. -/
structure Analysis.Projects (a : Analysis) (corpus : Corpus) : Prop where
  nodes : ∀ x, x ∈ a.raw.nodes ↔ ∃ g ∈ a.report.groups, g.id = x
  loopless : ∀ x, ¬ a.raw.Adj x x
  /-- There is an edge if there is a dependency, and it weighs as much as there are. -/
  weight : ∀ g ∈ a.report.groups, ∀ h ∈ a.report.groups, g ≠ h → ∀ w,
    a.raw.weight? ⟨g.id, h.id⟩ = some w ↔ 0 < w ∧ w = (a.dependencies.between corpus g h).card
  rawEdges : ∀ e, e ∈ a.report.rawEdges ↔ a.raw.weight? e.edge = some e.weight
  /-- No dependency is lost: it has an edge or is inside a group. -/
  total : (a.report.rawEdges.map WeightedEdge.weight).sum +
      (a.report.groups.map fun g => (a.dependencies.between corpus g g).card).sum =
    a.report.summary.directDependencies + a.report.summary.transitiveDependencies

namespace Analysis

variable {corpus : Corpus} {config : AnalysisConfig} {a : Analysis}

/-- The raw graph of an analysis loses no dependency between groups and counts none
twice. -/
theorem projects_of_run (h : run corpus config = .ok a) : a.Projects corpus := by
  obtain ⟨-, classifier, -, rfl⟩ := run_eq_ok_iff.1 h
  have hd := UnitDependencies.among_ofCorpus corpus config.resolution
    config.transitiveDepthLimit.toNat
  have hp := Grouping.partitions_ofCorpus corpus classifier config.resolution
  exact {
    nodes := fun x => UnitDependencies.mem_nodes_project.trans List.mem_map
    loopless := fun x hx => hx.ne rfl
    weight := fun g hg k hk hne w => by
      have hid : g.id ≠ k.id := fun he =>
        hne (List.inj_on_of_nodup_map Grouping.nodup_map_id hg hk he)
      refine UnitDependencies.weight?_project_eq_some_iff.trans ?_
      rw [and_iff_right hid, eq_comm (b := w)]
      exact and_congr_right fun _ => by rw [hd.count_groupEdges hp hg hk]; rfl
    rawEdges := fun e => Graph.mem_weightedEdges
    total := hd.totalWeight_project }

/-- Two units that include a header, which includes one of another group. -/
def sharedHeader : Corpus where
  units := [.ofReferences "x.c" ["a.h"], .ofReferences "y.c" ["a.h"],
    .ofReferences "a.h" ["net/b.h"], .ofReferences "net/b.h" []]
  sound := by decide +kernel

/-- Rules that give units of the network a group of their own. -/
def networkConfig : AnalysisConfig where
  rules := { RuleSet.empty with responsibilityRules := [⟨.contains ["net"], "networking"⟩] }
  layers := .standard
  resolution := .standard
  transitiveDepthLimit := 16

/-- Of the five dependencies, two lead through the header; two are inside a group and
three are behind its edge. -/
theorem projects_of_run_sharedHeader : ∃ a, run sharedHeader networkConfig = .ok a ∧
    a.Projects sharedHeader ∧ a.raw.edges.toList.map a.raw.weight? = [some 3] ∧
    a.report.summary.directDependencies = 3 ∧ a.report.summary.transitiveDependencies = 2 := by
  have h : run sharedHeader networkConfig = .ok (build sharedHeader networkConfig _) := rfl
  refine ⟨_, h, projects_of_run h, ?_⟩
  decide +kernel

end Analysis

end Layering
