import Layering.Proofs.Capacity

/-!
# Comparing raw graphs

If each unit has its dependencies and perhaps more, each edge between the groups stands for no
fewer of them. What this means for weights of 32 bits is `Analysis.RawWithin`, for any two analyses
with the same groups (`Analysis.rawWithin_build`). The graphs that are built for a run are compared
by `Analysis.exists_runIn_within`.
-/

namespace Layering

variable {T : GraphTable}

/-- The edges of a graph are edges of another, where none weighs less. -/
def GroupGraph.Within (g h : GroupGraph T) : Prop :=
  ∀ e v, g.weight? e = some v → ∃ w, h.weight? e = some w ∧ v ≤ w

namespace UnitDependencies

variable {d d' : UnitDependencies} {corpus : Corpus} {grouping : Grouping} {e : Edge}

/-! ## Projections with weights of 32 bits -/

theorem getD_weight?_project (hl : e.source ≠ e.target) :
    ((d.project corpus grouping).weight? e).getD 0 = (d.groupEdges corpus grouping).count e := by
  rw [weight?_project hl]
  split
  · rfl
  · next hmem => exact (List.count_eq_zero_of_not_mem hmem).symm

/-- The weights fit if fewer than 2³² dependencies are behind each edge. -/
theorem fits_project_iff : (d.project corpus grouping).Fits ↔
    ∀ e : Edge, e.source ≠ e.target → (d.groupEdges corpus grouping).count e < UInt32.size := by
  refine forall_congr' fun e => ?_
  by_cases hl : e.source = e.target
  · simp [Graph.weight?_loop _ hl, hl]
  · rw [getD_weight?_project hl]
    simp [hl]

/-- Where the graph can be built, no weight wraps around. -/
theorem projectIn_eq_some_iff {g : GroupGraph T} : d.projectIn T corpus grouping = some g ↔
    g = d.projectWrapped T corpus grouping ∧ (d.project corpus grouping).Fits := by
  rw [projectIn, GroupGraph.addEdges_eq_some_iff, GroupGraph.graph_ofNodes]
  rfl

theorem graph_of_projectIn {g : GroupGraph T} (h : d.projectIn T corpus grouping = some g) :
    g.graph = d.project corpus grouping := by
  rw [(GroupGraph.eq_addEdgesWrapped h).2, GroupGraph.graph_ofNodes]
  rfl

theorem graph_projectWrapped (T : GraphTable) (d : UnitDependencies) (corpus : Corpus)
    (grouping : Grouping) :
    (d.projectWrapped T corpus grouping).graph = (d.project corpus grouping).wrap :=
  GroupGraph.graph_addEdgesWrapped
    ((GroupGraph.graph_ofNodes _).trans (Graph.wrap_ofNodes _).symm)

/-- Where weights wrap around, an edge weighs the number of dependencies behind it modulo 2³². -/
theorem weight?_projectWrapped_eq_some_iff {w : UInt32} :
    (d.projectWrapped T corpus grouping).weight? e = some w ↔ e.source ≠ e.target ∧
      0 < (d.groupEdges corpus grouping).count e ∧
        .ofNat ((d.groupEdges corpus grouping).count e) = w := by
  have hweight : ((d.projectWrapped T corpus grouping).weight? e).map UInt32.toNat =
      ((d.project corpus grouping).weight? e).map (· % UInt32.size) := by
    rw [← GroupGraph.weight?_graph, graph_projectWrapped, Graph.weight?_wrap]
  constructor
  · intro hw
    rw [hw, Option.map_some, eq_comm, Option.map_eq_some_iff] at hweight
    obtain ⟨n, hn, hmod⟩ := hweight
    obtain ⟨hl, hpos, rfl⟩ := weight?_project_eq_some_iff.1 hn
    exact ⟨hl, hpos, UInt32.toNat_inj.1 (UInt32.toNat_ofNat'.trans hmod)⟩
  · rintro ⟨hl, hpos, rfl⟩
    rw [weight?_project_eq_some_iff.2 ⟨hl, hpos, rfl⟩, Option.map_some,
      Option.map_eq_some_iff] at hweight
    obtain ⟨w, hw, hmod⟩ := hweight
    rw [hw]
    exact congrArg some (UInt32.toNat_inj.1 (hmod.trans UInt32.toNat_ofNat'.symm))

/-- An edge with more dependencies behind it weighs more, unless its weight wraps around. -/
theorem weight?_projectWrapped_mono {grouping' : Grouping} {v : UInt32}
    (hle : (d.groupEdges corpus grouping).count e ≤ (d'.groupEdges corpus grouping').count e)
    (hv : (d.projectWrapped T corpus grouping).weight? e = some v) :
    ∃ w, (d'.projectWrapped T corpus grouping').weight? e = some w ∧
      ((d'.groupEdges corpus grouping').count e < UInt32.size → v ≤ w) := by
  obtain ⟨hl, hpos, rfl⟩ := weight?_projectWrapped_eq_some_iff.1 hv
  refine ⟨_, weight?_projectWrapped_eq_some_iff.2 ⟨hl, Nat.lt_of_lt_of_le hpos hle, rfl⟩,
    fun hlt => UInt32.le_iff_toNat_le.2 ?_⟩
  rw [UInt32.toNat_ofNat_of_lt' hlt, UInt32.toNat_ofNat_of_lt' (Nat.lt_of_le_of_lt hle hlt)]
  exact hle

end UnitDependencies

namespace Analysis

/-! ## Comparing two analyses -/

/-- The raw graph of an analysis is a part of that of another, as far as its weights of 32 bits
can tell. -/
structure RawWithin (T : GraphTable) (corpus : Corpus) (a b : Analysis) : Prop where
  /-- No fewer dependencies are behind an edge of the other. -/
  counts : ∀ e, (a.dependencies.groupEdges corpus a.grouping).count e ≤
    (b.dependencies.groupEdges corpus b.grouping).count e
  /-- The other can be built without overflow if fewer than 2³² dependencies are behind each of
  its edges. -/
  fits_iff : (∃ h, b.dependencies.projectIn T corpus b.grouping = some h) ↔
    ∀ e : Edge, e.source ≠ e.target →
      (b.dependencies.groupEdges corpus b.grouping).count e < UInt32.size
  /-- At most 131071 units have so few. -/
  fits_of_size : corpus.size ≤ 131071 → ∃ h, b.dependencies.projectIn T corpus b.grouping = some h
  /-- Then so can the first, and its edges weigh no more. Both are the raw graphs of the reports. -/
  built : ∀ h, b.dependencies.projectIn T corpus b.grouping = some h →
    ∃ g, a.dependencies.projectIn T corpus a.grouping = some g ∧ g.Within h ∧
      g.weightedEdges = a.report.rawEdges ∧ h.weightedEdges = b.report.rawEdges
  /-- If weights wrap around instead, each edge is still one of the other, and weighs no more
  unless its weight there has wrapped around. -/
  wrapped : ∀ e v, (a.dependencies.projectWrapped T corpus a.grouping).weight? e = some v →
    ∃ w, (b.dependencies.projectWrapped T corpus b.grouping).weight? e = some w ∧
      ((b.dependencies.groupEdges corpus b.grouping).count e < UInt32.size → v ≤ w)

variable {corpus : Corpus} {c d config : AnalysisConfig} {classifier : Classifier} {a : Analysis}

theorem rawWithin_build (T : GraphTable)
    (hgrouping : (build corpus c classifier).grouping = (build corpus d classifier).grouping)
    (hall : ∀ u, ((build corpus c classifier).dependencies.all u).Subperm
      ((build corpus d classifier).dependencies.all u)) :
    (build corpus c classifier).RawWithin T corpus (build corpus d classifier) := by
  have hcounts : ∀ e, ((build corpus c classifier).dependencies.groupEdges corpus
        (build corpus c classifier).grouping).count e ≤
      ((build corpus d classifier).dependencies.groupEdges corpus
        (build corpus d classifier).grouping).count e := by
    rw [hgrouping]
    exact UnitDependencies.count_groupEdges_mono corpus hall _
  refine ⟨hcounts, ?_, fun hsize => ?_, fun h hh => ?_,
    fun e _ => UnitDependencies.weight?_projectWrapped_mono (hcounts e)⟩
  · simp only [UnitDependencies.projectIn_eq_some_iff, exists_eq_left,
      UnitDependencies.fits_project_iff]
  · obtain ⟨h, hh, -⟩ := UnitDependencies.exists_projectIn T
      (UnitDependencies.among_ofCorpus corpus d.resolution d.transitiveDepthLimit.toNat)
      (Grouping.partitions_ofCorpus corpus classifier d.resolution) hsize
    exact ⟨h, hh⟩
  · obtain ⟨rfl, hfits⟩ := UnitDependencies.projectIn_eq_some_iff.1 hh
    have hlt := UnitDependencies.fits_project_iff.1 hfits
    have hg := UnitDependencies.projectIn_eq_some_iff (T := T).2 ⟨rfl,
      UnitDependencies.fits_project_iff.2 fun e hl => Nat.lt_of_le_of_lt (hcounts e) (hlt e hl)⟩
    refine ⟨_, hg, fun e v hv => ?_, ?_, ?_⟩
    · obtain ⟨w, hw, hle⟩ := UnitDependencies.weight?_projectWrapped_mono (hcounts e) hv
      exact ⟨w, hw, hle (hlt e (UnitDependencies.weight?_projectWrapped_eq_some_iff.1 hv).1)⟩
    · rw [← GroupGraph.weightedEdges_graph, UnitDependencies.graph_of_projectIn hg]
      rfl
    · rw [← GroupGraph.weightedEdges_graph, UnitDependencies.graph_of_projectIn hh]
      rfl

/-- A run builds graphs in tables if its raw graph can be built there, since no edge is offered
twice. -/
theorem exists_runIn_iff (h : run corpus config = .ok a) {g : GroupGraph T} :
    (∃ p, runIn T corpus config = .ok (some (g, p))) ↔
      a.dependencies.projectIn T corpus a.grouping = some g := by
  obtain ⟨hv, classifier, hc, rfl⟩ := run_eq_ok_iff.1 h
  have hp := Grouping.partitions_ofCorpus corpus classifier config.resolution
  have hlayers := LayerPolicy.validate_eq_ok_iff.1 (AnalysisConfig.validate_eq_ok_iff.1 hv).1
  have hrun : runIn T corpus config = .ok (buildIn T corpus config classifier) := by
    rw [runIn, hv, hc]
    rfl
  rw [hrun]
  constructor
  · rintro ⟨p, hbuild⟩
    obtain ⟨raw, hraw, hadmission⟩ := Option.bind_eq_some_iff.1 (Except.ok.inj hbuild)
    obtain ⟨b, -, hb⟩ := Option.bind_eq_some_iff.1 hadmission
    cases hb
    exact hraw
  · intro hraw
    obtain ⟨b, hb⟩ : ∃ b, TableAdmission.ofGraph g
        (Grouping.ofCorpus corpus classifier config.resolution).groups config.layers = some b := by
      obtain ⟨b, hb, -⟩ :=
        TableAdmission.exists_offers_start hp.nodup_id hlayers (List.prefix_refl _)
      exact ⟨b, hb⟩
    have hbuild : buildIn T corpus config classifier = some (g, b) :=
      Option.bind_eq_some_iff.2 ⟨g, hraw, Option.bind_eq_some_iff.2 ⟨b, hb, rfl⟩⟩
    exact ⟨b, congrArg _ hbuild⟩

/-- The raw graph that a run builds in a table is that of its report. -/
theorem weightedEdges_of_runIn (h : run corpus config = .ok a) {g : GroupGraph T}
    {p : TableAdmission T} (hrun : runIn T corpus config = .ok (some (g, p))) :
    g.weightedEdges = a.report.rawEdges := by
  have hg := UnitDependencies.graph_of_projectIn ((exists_runIn_iff h).1 ⟨p, hrun⟩)
  obtain ⟨-, classifier, -, rfl⟩ := run_eq_ok_iff.1 h
  rw [← GroupGraph.weightedEdges_graph, hg]
  rfl

/-- If a run builds graphs in tables, so does a run whose raw graph is a part. -/
theorem exists_runIn_within (hvalidate : c.validate = d.validate) (hrules : c.rules = d.rules)
    (hwithin : ∀ classifier,
      (build corpus c classifier).RawWithin T corpus (build corpus d classifier))
    {h : GroupGraph T} {q : TableAdmission T} (hrun : runIn T corpus d = .ok (some (h, q))) :
    ∃ g p, runIn T corpus c = .ok (some (g, p)) ∧ g.Within h := by
  rcases run_cases corpus hvalidate hrules with ⟨e, -, he⟩ | ⟨classifier, hc, hd⟩
  · cases hrun.symm.trans (runIn_of_error T he)
  · obtain ⟨g, hg, hle, -⟩ := (hwithin classifier).built h ((exists_runIn_iff hd).1 ⟨q, hrun⟩)
    obtain ⟨p, hp⟩ := (exists_runIn_iff hc).2 hg
    exact ⟨g, p, hp, hle⟩

end Analysis

end Layering
