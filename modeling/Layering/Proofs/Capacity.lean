import Layering.Proofs.Admission.Conflict
import Layering.Proofs.Admission.Scale
import Layering.Proofs.NormalPath
import Layering.Proofs.Weight
import Mathlib.Algebra.Order.Ring.Nat

/-!
# Weights that fit into tables

While the graphs of an analysis are built, no edge weighs more than there are pairs of units, one
in each of its two groups (`Graph.WithinPairs`). Two groups of a corpus of at most 131071 units
have fewer than `UInt32.size` such pairs, so its graphs can be built in tables, and these hold the
weights of the report (`Analysis.fitsTables_of_run`).
-/

namespace Layering

/-- No edge weighs more than there are pairs of units in its two groups. -/
def Graph.WithinPairs (k : Graph) (groups : List Group) : Prop :=
  ∀ e w, k.weight? e = some w → ∃ s ∈ groups, ∃ t ∈ groups, s ≠ t ∧ e = ⟨s.id, t.id⟩ ∧
    w ≤ s.units.size * t.units.size

/-! ## Pairs of units -/

/-- Two groups with at most 131071 units together have less than 2³² pairs of units. -/
theorem mul_lt_size_of_add_le {m n : Nat} (h : m + n ≤ 131071) : m * n < UInt32.size := by
  have hmean : 4 * m * n ≤ (m + n) ^ 2 := four_mul_le_sq_add m n
  have hsquare : (m + n) ^ 2 ≤ 131071 ^ 2 := Nat.pow_le_pow_left h 2
  have hsize : UInt32.size = 4294967296 := rfl
  rw [Nat.mul_assoc] at hmean
  omega

namespace Grouping.Partitions

variable {corpus : Corpus} {grouping : Grouping} {s t : Group} {k : Graph}
  (hp : grouping.Partitions corpus)
include hp

theorem nodup_id : (grouping.groups.map Group.id).Nodup := hp.ids ▸ List.nodup_range

/-- The group of a unit is listed. -/
theorem exists_group {i : UnitId} (hi : i < corpus.size) :
    ∃ s ∈ grouping.groups, s.id = grouping.groupOf i := by
  obtain ⟨s, -, hid, hs, -, -⟩ := hp.unit i corpus.units[i] (List.getElem?_eq_getElem hi)
  exact ⟨s, hs, hid⟩

/-- A group has as many units as it has paths. -/
theorem card_unitIds (hs : s ∈ grouping.groups) : (s.unitIds corpus).card = s.units.size := by
  let path (i : UnitId) : String := (corpus.units[i]?.map SourceUnit.path).getD ""
  have hpath {i : UnitId} {u : SourceUnit} (h : corpus.units[i]? = some u) : path i = u.path := by
    simp only [path, h, Option.map_some, Option.getD_some]
  rw [OrdSet.size, ← List.toFinset_card_of_nodup s.units.nodup_toList]
  refine Finset.card_bij (fun i _ => path i) (fun i hi => ?_) (fun i hi j hj hij => ?_)
    fun p hmem => ?_
  · obtain ⟨u, hu, hus⟩ := Group.mem_unitIds.1 hi
    rw [hpath hu]
    exact List.mem_toFinset.2 hus
  · obtain ⟨u, hu, -⟩ := Group.mem_unitIds.1 hi
    obtain ⟨v, hv, -⟩ := Group.mem_unitIds.1 hj
    rw [hpath hu, hpath hv] at hij
    exact Corpus.eq_of_path_eq hv hu hij
  · obtain ⟨u, hu, rfl⟩ := hp.member s hs p (List.mem_toFinset.1 hmem)
    obtain ⟨hunit, hus⟩ := List.mem_filter.1 hu
    obtain ⟨i, hi⟩ := List.mem_iff_getElem?.1 hunit
    exact ⟨i, Group.mem_unitIds.2 ⟨u, hi, of_decide_eq_true hus⟩, hpath hi⟩

/-- Two groups have no more units together than the corpus, since they share none. -/
theorem size_add_size_le (hs : s ∈ grouping.groups) (ht : t ∈ grouping.groups) (hne : s ≠ t) :
    s.units.size + t.units.size ≤ corpus.size := by
  have hdisjoint : Disjoint (s.unitIds corpus) (t.unitIds corpus) := by
    refine Finset.disjoint_left.2 fun i hi hi' => hne ?_
    have hlt := Group.lt_size_of_mem_unitIds hi
    have hid : s.id = t.id :=
      ((hp.mem_unitIds_iff hs hlt).1 hi).symm.trans ((hp.mem_unitIds_iff ht hlt).1 hi')
    exact List.inj_on_of_nodup_map hp.nodup_id hs ht hid
  have hsub : s.unitIds corpus ∪ t.unitIds corpus ⊆ Finset.range corpus.size := fun i hi =>
    Finset.mem_range.2 ((Finset.mem_union.1 hi).elim Group.lt_size_of_mem_unitIds
      Group.lt_size_of_mem_unitIds)
  have hcard := Finset.card_le_card hsub
  rwa [Finset.card_union_of_disjoint hdisjoint, Finset.card_range, hp.card_unitIds hs,
    hp.card_unitIds ht] at hcard

theorem card_between_le (d : UnitDependencies) (hs : s ∈ grouping.groups)
    (ht : t ∈ grouping.groups) :
    (d.between corpus s t).card ≤ s.units.size * t.units.size := by
  rw [← hp.card_unitIds hs, ← hp.card_unitIds ht, ← Finset.card_product]
  exact Finset.card_filter_le ..

/-- Weights within the pairs of units fit if there are at most 131071 units. -/
theorem fits (hsize : corpus.size ≤ 131071) (h : k.WithinPairs grouping.groups) : k.Fits := by
  intro e
  cases hw : k.weight? e with
  | none => decide
  | some w =>
    obtain ⟨s, hs, t, ht, hne, -, hle⟩ := h e w hw
    have hadd := (hp.size_add_size_le hs ht hne).trans hsize
    exact Nat.lt_of_le_of_lt hle (mul_lt_size_of_add_le hadd)

end Grouping.Partitions

/-! ## Projecting -/

namespace UnitDependencies

variable {d : UnitDependencies} {corpus : Corpus} {grouping : Grouping} {e : Edge}
  {es : List Edge}

theorem exists_groups_of_mem_groupEdges (hd : d.Among corpus) (hp : grouping.Partitions corpus)
    (he : e ∈ d.groupEdges corpus grouping) :
    ∃ s ∈ grouping.groups, ∃ t ∈ grouping.groups, e = ⟨s.id, t.id⟩ := by
  rw [groupEdges_eq_map] at he
  obtain ⟨p, hmem, rfl⟩ := List.mem_map.1 he
  obtain ⟨hlt, hall⟩ := mem_pairs.1 hmem
  obtain ⟨s, hs, hsid⟩ := hp.exists_group hlt
  obtain ⟨t, ht, htid⟩ := hp.exists_group (hd.lt_size _ _ hall)
  exact ⟨s, hs, t, ht, by rw [hsid, htid]⟩

/-- At no moment of the projection does an edge weigh more than there are pairs of units, since
each pair adds 1 to it at most once. -/
theorem withinPairs_foldl_addEdge (hd : d.Among corpus) (hp : grouping.Partitions corpus)
    (hes : es <+: d.groupEdges corpus grouping) :
    (es.foldl (·.addEdge · 1) (Graph.ofNodes (grouping.groups.map Group.id))).WithinPairs
      grouping.groups := by
  intro e w hw
  have hl : e.source ≠ e.target := fun hl => by
    rw [Graph.weight?_loop _ hl] at hw
    cases hw
  rw [Graph.weight?_foldl_addEdge hl, Graph.weight?_ofNodes, Option.getD_none, Nat.zero_add] at hw
  split at hw
  · next hmem =>
    obtain ⟨s, hs, t, ht, rfl⟩ := exists_groups_of_mem_groupEdges hd hp (hes.subset hmem)
    refine ⟨s, hs, t, ht, fun h => hl (congrArg Group.id h), rfl, ?_⟩
    calc w = es.count ⟨s.id, t.id⟩ := (Option.some_inj.1 hw).symm
      _ ≤ (d.groupEdges corpus grouping).count ⟨s.id, t.id⟩ := hes.sublist.count_le _
      _ = (d.between corpus s t).card := hd.count_groupEdges hp hs ht
      _ ≤ s.units.size * t.units.size := hp.card_between_le d hs ht
  · cases hw

/-- After every dependency that is projected, the rest can be, if there are at most 131071 units. -/
theorem exists_addEdges (T : GraphTable) (hd : d.Among corpus) (hp : grouping.Partitions corpus)
    (hsize : corpus.size ≤ 131071) (hes : es <+: d.groupEdges corpus grouping) :
    ∃ g : GroupGraph T, (GroupGraph.ofNodes (grouping.groups.map Group.id)).addEdges es = some g ∧
      g.graph = es.foldl (·.addEdge · 1) (.ofNodes (grouping.groups.map Group.id)) := by
  have hfits := hp.fits hsize (withinPairs_foldl_addEdge hd hp hes)
  rw [← GroupGraph.graph_ofNodes (T := T)] at hfits ⊢
  exact GroupGraph.exists_addEdges hfits

theorem exists_projectIn (T : GraphTable) (hd : d.Among corpus) (hp : grouping.Partitions corpus)
    (hsize : corpus.size ≤ 131071) :
    ∃ raw : GroupGraph T, d.projectIn T corpus grouping = some raw ∧
      raw.graph = d.project corpus grouping := exists_addEdges T hd hp hsize (List.prefix_refl _)

/-- A projected weight is the number of dependencies behind the edge. -/
theorem exists_groups_of_weight?_project (hd : d.Among corpus) (hp : grouping.Partitions corpus)
    {w : Nat} (hw : (d.project corpus grouping).weight? e = some w) :
    ∃ s ∈ grouping.groups, ∃ t ∈ grouping.groups, s ≠ t ∧ e = ⟨s.id, t.id⟩ ∧
      w = (d.between corpus s t).card := by
  obtain ⟨hl, hpos, rfl⟩ := weight?_project_eq_some_iff.1 hw
  obtain ⟨s, hs, t, ht, rfl⟩ := exists_groups_of_mem_groupEdges hd hp (List.count_pos_iff.1 hpos)
  exact ⟨s, hs, t, ht, fun h => hl (congrArg Group.id h), rfl, hd.count_groupEdges hp hs ht⟩

end UnitDependencies

/-! ## Admitting -/

section

variable {T : GraphTable} {raw : GroupGraph T} {groups : List Group}
  {policy : LayerPolicy}

/-- After every edge that is offered, the rest can be. -/
theorem TableAdmission.exists_offers_start (hd : (groups.map Group.id).Nodup)
    (hp : policy.admissionOrder.Nodup) {cs : List Candidate}
    (hcs : cs <+: candidates raw groups policy) :
    ∃ b : TableAdmission T, offers policy (start groups) cs = some b ∧
      b.plain = Admission.offers policy (.start groups) (cs.map Candidate.plain) := by
  have hplain := hcs.map Candidate.plain
  rw [map_plain_candidates] at hplain
  have hfits := Admission.fits_offers_start raw.fits_graph hd hp hplain
  rw [← plain_start (T := T)] at hfits ⊢
  obtain ⟨b, hb⟩ := exists_offers_of_fits hfits
  exact ⟨b, hb, (eq_offersWrapped hb).2⟩

/-- At no moment does an admitted edge weigh more than there are pairs of units. -/
theorem TableAdmission.withinPairs_of_plain (hd : (groups.map Group.id).Nodup)
    (hp : policy.admissionOrder.Nodup) (hraw : raw.graph.WithinPairs groups)
    {cs : List Candidate} (hcs : cs <+: candidates raw groups policy) {b : TableAdmission T}
    (hb : b.plain = Admission.offers policy (.start groups) (cs.map Candidate.plain)) :
    b.admitted.graph.WithinPairs groups := by
  have hplain := hcs.map Candidate.plain
  rw [map_plain_candidates] at hplain
  intro e w hw
  have hw' : b.plain.admitted.weight? e = some w := hw
  rw [hb] at hw'
  exact hraw e w (Admission.weight?_of_offers_start hd hp hplain hw')

end

/-! ## Analyses -/

/-- The graphs of an analysis can be built in tables, weights included. -/
structure Analysis.FitsTables (T : GraphTable) (a : Analysis) (corpus : Corpus)
    (config : AnalysisConfig) : Prop where
  /-- Every dependency can be projected after those before it. -/
  projecting : ∀ es, es <+: a.dependencies.groupEdges corpus a.grouping →
    ∃ g : GroupGraph T, (GroupGraph.ofNodes (a.report.groups.map Group.id)).addEdges es = some g ∧
      g.graph.WithinPairs a.report.groups
  /-- Then every edge can be offered after those before it. -/
  admitting : ∀ raw : GroupGraph T, a.dependencies.projectIn T corpus a.grouping = some raw →
    ∀ cs, cs <+: TableAdmission.candidates raw a.report.groups config.layers →
      ∃ b : TableAdmission T, b.admitted.graph.WithinPairs a.report.groups ∧
        TableAdmission.offers config.layers (.start a.report.groups) cs = some b
  /-- The tables hold the edges of the report. -/
  tables : ∃ raw b, runIn T corpus config = .ok (some (raw, b)) ∧
    raw.weightedEdges = a.report.rawEdges ∧
    b.admitted.weightedEdges = a.report.admittedEdges ∧ b.rejected = a.report.rejectedEdges
  /-- An edge of the report weighs the number of dependencies behind it. -/
  exact : ∀ e ∈ a.report.rawEdges ++ a.report.admittedEdges,
    ∃ s ∈ a.report.groups, ∃ t ∈ a.report.groups, s ≠ t ∧ e.edge = ⟨s.id, t.id⟩ ∧
      e.weight = (a.dependencies.between corpus s t).card

namespace Analysis

variable {corpus : Corpus} {config : AnalysisConfig} {a : Analysis}

/-- Without a report there are no graphs. -/
theorem runIn_of_error (T : GraphTable) {e : ConfigError} (h : run corpus config = .error e) :
    runIn T corpus config = .error e := by
  unfold run at h
  unfold runIn
  cases hv : config.validate with
  | error _ =>
    rw [hv] at h
    cases h
    rfl
  | ok _ =>
    rw [hv] at h
    cases hc : config.rules.compile with
    | error _ =>
      rw [hc] at h
      cases h
      rfl
    | ok _ =>
      rw [hc] at h
      cases h

theorem fitsTables_of_ok (T : GraphTable) (hsize : corpus.size ≤ 131071)
    (h : run corpus config = .ok a) : a.FitsTables T corpus config := by
  obtain ⟨hv, classifier, hc, rfl⟩ := run_eq_ok_iff.1 h
  have hd := UnitDependencies.among_ofCorpus corpus config.resolution
    config.transitiveDepthLimit.toNat
  have hp := Grouping.partitions_ofCorpus corpus classifier config.resolution
  have hlayers := LayerPolicy.validate_eq_ok_iff.1 (AnalysisConfig.validate_eq_ok_iff.1 hv).1
  obtain ⟨raw, hraw, hgraph⟩ := UnitDependencies.exists_projectIn T hd hp hsize
  have hwithin : raw.graph.WithinPairs
      (Grouping.ofCorpus corpus classifier config.resolution).groups :=
    hgraph ▸ UnitDependencies.withinPairs_foldl_addEdge hd hp (List.prefix_refl _)
  obtain ⟨b, hb, hplain⟩ :=
    TableAdmission.exists_offers_start hp.nodup_id hlayers (List.prefix_refl _)
  rw [TableAdmission.map_plain_candidates, hgraph] at hplain
  constructor
  case projecting =>
    intro es hes
    obtain ⟨g, hg, hgraph⟩ := UnitDependencies.exists_addEdges T hd hp hsize hes
    exact ⟨g, hg, hgraph ▸ UnitDependencies.withinPairs_foldl_addEdge hd hp hes⟩
  case admitting =>
    intro raw' hraw' cs hcs
    obtain rfl : raw = raw' := Option.some_inj.1 (hraw.symm.trans hraw')
    obtain ⟨b, hb, hplain⟩ := TableAdmission.exists_offers_start hp.nodup_id hlayers hcs
    exact ⟨b, TableAdmission.withinPairs_of_plain hp.nodup_id hlayers hwithin hcs hplain, hb⟩
  case tables =>
    refine ⟨raw, b, ?_, ?_, ?_, congrArg Admission.rejected hplain⟩
    · have hbuild : buildIn T corpus config classifier = some (raw, b) := by
        have hb : TableAdmission.ofGraph raw _ config.layers = some b := hb
        simp [buildIn, hraw, hb]
      rw [runIn, hv, hc, ← hbuild]
      rfl
    · rw [← raw.weightedEdges_graph, hgraph]
      rfl
    · rw [← b.admitted.weightedEdges_graph]
      exact congrArg (fun c => c.admitted.weightedEdges) hplain
  case exact =>
    intro e he
    refine UnitDependencies.exists_groups_of_weight?_project hd hp ?_
    rcases List.mem_append.1 he with he | he
    · exact Graph.mem_weightedEdges.1 he
    · exact Admission.weight?_of_offers_start hp.nodup_id hlayers (List.prefix_refl _)
        (Graph.mem_weightedEdges.1 he)

/-- The graphs of at most 131071 units can be built in tables, whatever the configuration: either
there is no report, and no graph is built, or no weight ever becomes too large, and each is in the
end the number of dependencies behind its edge. -/
theorem fitsTables_of_run (T : GraphTable) (corpus : Corpus) (config : AnalysisConfig)
    (hsize : corpus.size ≤ 131071) :
    (∃ e, run corpus config = .error e ∧ runIn T corpus config = .error e) ∨
      ∃ a, run corpus config = .ok a ∧ a.FitsTables T corpus config := by
  cases h : run corpus config with
  | error e => exact .inl ⟨e, rfl, runIn_of_error T h⟩
  | ok a => exact .inr ⟨a, rfl, fitsTables_of_ok T hsize h⟩

/-- Three dependencies between the two groups of the shared header fit, as pairs of three units
with one. -/
theorem fitsTables_of_run_sharedHeader : sharedHeader.size ≤ 131071 ∧
    ∃ a, run sharedHeader networkConfig = .ok a ∧
      a.FitsTables .byArrival sharedHeader networkConfig ∧
      a.report.groups.map (·.units.size) = [1, 3] ∧
      a.report.rawEdges = [⟨⟨1, 0⟩, 3⟩] ∧ a.report.admittedEdges = [⟨⟨1, 0⟩, 3⟩] := by
  have h : run sharedHeader networkConfig = .ok (build sharedHeader networkConfig _) := rfl
  have hsize : sharedHeader.size ≤ 131071 := by decide
  obtain ⟨e, he, -⟩ | ⟨a, ha, hfits⟩ :=
    fitsTables_of_run .byArrival sharedHeader networkConfig hsize
  · cases h.symm.trans he
  · obtain rfl := Except.ok.inj (h.symm.trans ha)
    exact ⟨hsize, _, h, hfits, by decide +kernel⟩

end Analysis

end Layering
