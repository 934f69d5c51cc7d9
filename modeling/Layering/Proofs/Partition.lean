import Layering.Proofs.Analysis
import Layering.Proofs.Corpus

/-!
# Groups partition the units

The groups of a corpus are its units, put together by classification
(`Grouping.Partitions`): every unit is in one group, the one that its id leads to;
no group is empty; the groups stand in the order of their classifications, which
are distinct; and the totals of a group are those of its units.

* `Group.members_eq`: the units of a group are those that were added to it;
* `Grouping.partitions_ofCorpus`: the groups of a corpus partition it;
* `Grouping.units_partitioned`: so do the groups of every report.
-/

namespace Layering

namespace Group

variable {id : GroupId} {k : Classification} {us : List SourceUnit}

/-- The classification of the units of a group. -/
def classification (g : Group) : Classification := ⟨g.layer, g.responsibility⟩

/-- The units of a corpus that are in a group. -/
def members (corpus : Corpus) (g : Group) : List SourceUnit :=
  corpus.units.filter (·.path ∈ g.units)

/-- The group of some units. -/
def ofUnits (id : GroupId) (k : Classification) (us : List SourceUnit) : Group :=
  us.foldl add (.empty id k)

@[simp] theorem id_ofUnits : (ofUnits id k us).id = id := id_foldl_add us _

@[simp] theorem classification_ofUnits : (ofUnits id k us).classification = k := by
  rw [ofUnits, foldl_add_eq]
  rfl

@[simp] theorem mem_units_ofUnits {p : String} :
    p ∈ (ofUnits id k us).units ↔ p ∈ us.map SourceUnit.path := by
  rw [ofUnits, foldl_add_eq, OrdSet.mem_foldl_insert]
  exact or_iff_left (OrdSet.not_mem_empty p)

theorem symbolCount_ofUnits :
    (ofUnits id k us).symbolCount = (us.map fun u => u.symbols.length).sum := by
  rw [ofUnits, foldl_add_eq]
  exact Nat.zero_add _

theorem privateSymbolCount_ofUnits : (ofUnits id k us).privateSymbolCount =
    (us.map fun u => (u.symbols.filter (·.isPrivate)).length).sum := by
  rw [ofUnits, foldl_add_eq]
  exact Nat.zero_add _

theorem externallyCalled_ofUnits :
    (ofUnits id k us).externallyCalled = us.any fun u => u.externallyCalled := by
  rw [ofUnits, foldl_add_eq]
  exact Bool.false_or _

end Group

namespace Grouping

variable {corpus : Corpus} {classifier : Classifier} {config : ResolutionConfig} {g : Group}
  {id : GroupId} {k : Classification} {us : List SourceUnit} {i : UnitId} {u : SourceUnit}

/-- The units of a corpus, each with its classification. -/
def classified (corpus : Corpus) (classifier : Classifier) (config : ResolutionConfig) :
    List (Classification × SourceUnit) :=
  (classifications corpus classifier config).zip corpus.units

/-- The classifications in order, each with its units. -/
def entries (corpus : Corpus) (classifier : Classifier) (config : ResolutionConfig) :
    List (Classification × List SourceUnit) :=
  (OrdMap.collect (classified corpus classifier config)).entries

theorem map_snd_classified (corpus : Corpus) (classifier : Classifier)
    (config : ResolutionConfig) : (classified corpus classifier config).map Prod.snd = corpus.units :=
  List.map_snd_zip (Nat.le_of_eq length_classifications.symm)

/-- No two classified units have the same path. -/
theorem nodup_path_classified :
    ((classified corpus classifier config).map fun q => q.2.path).Nodup := by
  have h := corpus.nodup_map_path
  rwa [← map_snd_classified corpus classifier config, List.map_map] at h

theorem mem_entries : (k, us) ∈ entries corpus classifier config ↔
    k ∈ (classified corpus classifier config).map Prod.fst ∧
      us = ((classified corpus classifier config).filter (·.1 = k)).map Prod.snd :=
  OrdMap.mem_entries_collect

theorem nodup_keys (corpus : Corpus) (classifier : Classifier) (config : ResolutionConfig) :
    ((entries corpus classifier config).map Prod.fst).Nodup :=
  (OrdMap.collect (classified corpus classifier config)).keys.nodup_toList

/-- The group at a place is made of the units of the classification at that place. -/
theorem getElem?_groups (id : GroupId) : (ofCorpus corpus classifier config).groups[id]? =
    (entries corpus classifier config)[id]?.map fun e => .ofUnits id e.1 e.2 := by
  rw [ofCorpus, List.getElem?_map, List.getElem?_zipIdx, Option.map_map, Nat.zero_add]
  rfl

theorem mem_groups : g ∈ (ofCorpus corpus classifier config).groups ↔
    ∃ id k us, (entries corpus classifier config)[id]? = some (k, us) ∧ g = .ofUnits id k us := by
  rw [List.mem_iff_getElem?]
  refine exists_congr fun id => ?_
  rw [getElem?_groups, Option.map_eq_some_iff, Prod.exists]
  exact exists_congr fun k => exists_congr fun us => and_congr_right fun _ => eq_comm

/-- A unit is in a group if its classification is that of the group. -/
theorem mem_units_iff (hus : (k, us) ∈ entries corpus classifier config)
    {q : Classification × SourceUnit} (hq : q ∈ classified corpus classifier config) :
    q.2.path ∈ (Group.ofUnits id k us).units ↔ q.1 = k := by
  rw [Group.mem_units_ofUnits, (mem_entries.1 hus).2, List.map_map, List.mem_map]
  constructor
  · rintro ⟨r, hr, hpath⟩
    obtain ⟨hr, hk⟩ := List.mem_filter.1 hr
    obtain rfl := List.inj_on_of_nodup_map nodup_path_classified hr hq hpath
    exact of_decide_eq_true hk
  · rintro rfl
    exact ⟨q, List.mem_filter.2 ⟨hq, by simp⟩, rfl⟩

/-- The units in a group are those that it is made of. -/
theorem members_ofUnits (hus : (k, us) ∈ entries corpus classifier config) :
    (Group.ofUnits id k us).members corpus = us := by
  have hfilter : (classified corpus classifier config).filter
      (fun q => decide (q.2.path ∈ (Group.ofUnits id k us).units)) =
        (classified corpus classifier config).filter (·.1 = k) :=
    List.filter_congr fun q hq => decide_eq_decide.2 (mem_units_iff hus hq)
  rw [Group.members, ← map_snd_classified corpus classifier config, List.filter_map]
  exact (congrArg _ hfilter).trans (mem_entries.1 hus).2.symm

/-- The id of a unit leads to the place of its classification. -/
theorem exists_entry_groupOf (classifier : Classifier) (config : ResolutionConfig)
    (hu : corpus.units[i]? = some u) :
    ∃ k us, (k, u) ∈ classified corpus classifier config ∧
      (entries corpus classifier config)[(ofCorpus corpus classifier config).groupOf i]? =
        some (k, us) := by
  have hi : i < (classifications corpus classifier config).length := by
    rw [length_classifications]
    exact (List.getElem?_eq_some_iff.1 hu).1
  obtain ⟨k, hk⟩ : ∃ k, (classifications corpus classifier config)[i]? = some k :=
    ⟨_, List.getElem?_eq_getElem hi⟩
  have hmem : (k, u) ∈ classified corpus classifier config :=
    List.mem_iff_getElem?.2 ⟨i, List.getElem?_zip_eq_some.2 ⟨hk, hu⟩⟩
  have hkey : k ∈ (entries corpus classifier config).map Prod.fst :=
    List.mem_map.2 ⟨(k, _), mem_entries.2 ⟨List.mem_map_of_mem hmem, rfl⟩, rfl⟩
  have hgroup : (ofCorpus corpus classifier config).groupOf i =
      ((entries corpus classifier config).map Prod.fst).idxOf k := by
    rw [groupOf, ofCorpus, List.getD_eq_getElem?_getD, List.getElem?_map, hk]
    rfl
  have hplace := List.getElem?_idxOf hkey
  rw [← hgroup, List.getElem?_map] at hplace
  obtain ⟨⟨k, us⟩, he, rfl⟩ := Option.map_eq_some_iff.1 hplace
  exact ⟨k, us, hmem, he⟩

/-! ## Partitions -/

/-- Groups that are the units of a corpus, put together by classification. -/
structure Partitions (g : Grouping) (corpus : Corpus) : Prop where
  /-- Each unit has a group. -/
  length : g.unitGroups.length = corpus.size
  /-- The group of a unit is the only one that holds it. -/
  unit : ∀ (i : UnitId) u, corpus.units[i]? = some u → ∃ h, g.group? (g.groupOf i) = some h ∧
    h.id = g.groupOf i ∧ h ∈ g.groups ∧ u.path ∈ h.units ∧ ∀ k ∈ g.groups, u.path ∈ k.units → k = h
  /-- A group holds units, and nothing but units. -/
  nonempty : ∀ h ∈ g.groups, h.members corpus ≠ []
  member : ∀ h ∈ g.groups, ∀ p ∈ h.units, ∃ u ∈ h.members corpus, u.path = p
  ids : g.groups.map Group.id = List.range g.groups.length
  ascending : (g.groups.map Group.classification).Pairwise (· < ·)
  find : ∀ layer responsibility h, g.find? layer responsibility = some h ↔
    h ∈ g.groups ∧ h.layer = layer ∧ h.responsibility = responsibility
  symbolCount : ∀ h ∈ g.groups,
    h.symbolCount = ((h.members corpus).map fun u => u.symbols.length).sum
  privateSymbolCount : ∀ h ∈ g.groups, h.privateSymbolCount =
    ((h.members corpus).map fun u => (u.symbols.filter (·.isPrivate)).length).sum
  externallyCalled : ∀ h ∈ g.groups,
    h.externallyCalled ↔ ∃ u ∈ h.members corpus, u.externallyCalled
  symbols : (g.groups.map Group.symbolCount).sum = corpus.symbols.length

/-- A unit is held by the group of its classification alone. -/
theorem eq_ofUnits_of_mem_units {h : Group} (he : (entries corpus classifier config)[id]? = some (k, us))
    (hu : (k, u) ∈ classified corpus classifier config)
    (hh : h ∈ (ofCorpus corpus classifier config).groups) (hp : u.path ∈ h.units) :
    h = .ofUnits id k us := by
  obtain ⟨id', k', us', he', rfl⟩ := mem_groups.1 hh
  have hk : k = k' := (mem_units_iff (List.mem_of_getElem? he') hu).1 hp
  have hkey : ((entries corpus classifier config).map Prod.fst)[id]? =
      ((entries corpus classifier config).map Prod.fst)[id']? := by
    rw [List.getElem?_map, List.getElem?_map, he, he', Option.map_some, Option.map_some, hk]
  have hlt : id < ((entries corpus classifier config).map Prod.fst).length := by
    rw [List.length_map]
    exact (List.getElem?_eq_some_iff.1 he).1
  obtain rfl := (List.getElem?_inj hlt (nodup_keys corpus classifier config)).1 hkey
  obtain ⟨rfl, rfl⟩ := Prod.mk.inj (Option.some_inj.1 (he.symm.trans he'))
  rfl

/-- The classifications of the groups are the keys in order. -/
theorem map_classification_groups :
    (ofCorpus corpus classifier config).groups.map Group.classification =
      (entries corpus classifier config).map Prod.fst := by
  refine List.ext_getElem? fun id => ?_
  rw [List.getElem?_map, List.getElem?_map, getElem?_groups, Option.map_map]
  exact Option.map_congr fun e _ => Group.classification_ofUnits

/-- The symbols of all groups are those of the corpus. -/
theorem sum_symbolCount : ((ofCorpus corpus classifier config).groups.map Group.symbolCount).sum =
    corpus.symbols.length := by
  have hgroups : (ofCorpus corpus classifier config).groups.map Group.symbolCount =
      (entries corpus classifier config).map
        fun e => (e.2.flatMap SourceUnit.symbols).length := by
    refine List.ext_getElem? fun id => ?_
    rw [List.getElem?_map, List.getElem?_map, getElem?_groups, Option.map_map]
    refine Option.map_congr fun e _ => ?_
    rw [Function.comp_apply, Group.symbolCount_ofUnits, List.length_flatMap]
  have hperm : ((entries corpus classifier config).flatMap Prod.snd).Perm corpus.units :=
    (OrdMap.perm_flatMap_collect _).trans (.of_eq (map_snd_classified ..))
  rw [hgroups, corpus.length_symbols, ← (hperm.flatMap_right _).length_eq, List.flatMap_assoc,
    List.length_flatMap]

/-- The groups of a corpus partition it, whatever the rules. -/
theorem partitions_ofCorpus (corpus : Corpus) (classifier : Classifier)
    (config : ResolutionConfig) : (ofCorpus corpus classifier config).Partitions corpus where
  length := by
    rw [ofCorpus, List.length_map, length_classifications]
    rfl
  unit i u hu := by
    obtain ⟨k, us, hk, he⟩ := exists_entry_groupOf classifier config hu
    have hget : (ofCorpus corpus classifier config).group?
        ((ofCorpus corpus classifier config).groupOf i) =
          some (.ofUnits ((ofCorpus corpus classifier config).groupOf i) k us) := by
      rw [group?, getElem?_groups, he]
      rfl
    exact ⟨_, hget, Group.id_ofUnits, List.mem_of_getElem? hget,
      (mem_units_iff (List.mem_of_getElem? he) hk).2 rfl,
      fun h hh hp => eq_ofUnits_of_mem_units he hk hh hp⟩
  nonempty h hh := by
    obtain ⟨id, k, us, he, rfl⟩ := mem_groups.1 hh
    have hmem := List.mem_of_getElem? he
    obtain ⟨q, hq, rfl⟩ := List.mem_map.1 (mem_entries.1 hmem).1
    rw [members_ofUnits hmem, (mem_entries.1 hmem).2]
    exact List.ne_nil_of_mem (List.mem_map_of_mem (List.mem_filter.2 ⟨hq, by simp⟩))
  member h hh p hp := by
    obtain ⟨id, k, us, he, rfl⟩ := mem_groups.1 hh
    rw [members_ofUnits (List.mem_of_getElem? he)]
    exact List.mem_map.1 (Group.mem_units_ofUnits.1 hp)
  ids := map_id_ofCorpus
  ascending := by
    rw [map_classification_groups]
    exact (OrdMap.collect (classified corpus classifier config)).ascending
  find layer responsibility h := by
    constructor
    · intro hf
      have hp := List.find?_some hf
      simp only [Bool.and_eq_true, decide_eq_true_eq, beq_iff_eq] at hp
      exact ⟨List.mem_of_find?_eq_some hf, hp⟩
    · rintro ⟨hh, rfl, rfl⟩
      have hnodup := nodup_keys corpus classifier config
      rw [← map_classification_groups] at hnodup
      refine find?_eq_some_of_unique hh (by simp) fun k hk hp => ?_
      simp only [Bool.and_eq_true, decide_eq_true_eq, beq_iff_eq] at hp
      exact List.inj_on_of_nodup_map hnodup hk hh (congrArg₂ Classification.mk hp.1 hp.2)
  symbolCount h hh := by
    obtain ⟨id, k, us, he, rfl⟩ := mem_groups.1 hh
    rw [members_ofUnits (List.mem_of_getElem? he), Group.symbolCount_ofUnits]
  privateSymbolCount h hh := by
    obtain ⟨id, k, us, he, rfl⟩ := mem_groups.1 hh
    rw [members_ofUnits (List.mem_of_getElem? he), Group.privateSymbolCount_ofUnits]
  externallyCalled h hh := by
    obtain ⟨id, k, us, he, rfl⟩ := mem_groups.1 hh
    rw [members_ofUnits (List.mem_of_getElem? he), Group.externallyCalled_ofUnits, List.any_eq_true]
  symbols := sum_symbolCount

/-- The groups of a corpus partition its units, whatever the rules and the
configuration; in a report, the group found for a unit is the one that holds it. -/
theorem units_partitioned :
    (∀ (corpus : Corpus) (classifier : Classifier) (config : ResolutionConfig),
      (ofCorpus corpus classifier config).Partitions corpus) ∧
    ∀ (corpus : Corpus) (config : AnalysisConfig) (a : Analysis), Analysis.run corpus config = .ok a →
      a.report.groups = a.grouping.groups ∧ a.grouping.Partitions corpus ∧
      ∀ (i : UnitId) u, corpus.units[i]? = some u →
        a.report.groupOfUnit? u.path = a.grouping.group? (a.grouping.groupOf i) := by
  refine ⟨partitions_ofCorpus, fun corpus config a h => ?_⟩
  obtain ⟨-, classifier, -, rfl⟩ := Analysis.run_eq_ok_iff.1 h
  have hpart := partitions_ofCorpus corpus classifier config.resolution
  refine ⟨rfl, hpart, fun i u hu => ?_⟩
  obtain ⟨g, hg, -, hmem, hp, honly⟩ := hpart.unit i u hu
  refine Eq.trans ?_ hg.symm
  exact find?_eq_some_of_unique hmem (decide_eq_true hp) fun k hk hpk =>
    honly k hk (of_decide_eq_true hpk)

/-- A header, its companion, and a header without one. -/
def pairedCorpus : Corpus where
  units := [
    ⟨"a.h", [⟨"open", false⟩], [], false⟩,
    ⟨"a.c", [⟨"open", false⟩, ⟨"step", true⟩], ["a.h"], true⟩,
    ⟨"b.h", [⟨"size", false⟩], [], false⟩]
  sound := by decide +kernel

/-- Rules that tell headers from other units. -/
def headerConfig : AnalysisConfig where
  rules := { RuleSet.empty with layerRules := [⟨.contains [".h"], .entities⟩] }
  layers := .standard
  resolution := .standard
  transitiveDepthLimit := 16

/-- The first header is in the group of its companion, with the symbols of both; the
other one is alone. -/
theorem units_partitioned_paired : ∃ a, Analysis.run pairedCorpus headerConfig = .ok a ∧
    a.grouping.Partitions pairedCorpus ∧
    a.report.groupOfUnit? "a.h" = a.grouping.group? (a.grouping.groupOf 0) ∧
    (a.report.groups.map fun g => (g.units.toList, g.symbolCount, g.externallyCalled)) =
      [(["b.h"], 1, false), (["a.c", "a.h"], 3, true)] := by
  have h : Analysis.run pairedCorpus headerConfig =
      .ok (Analysis.build pairedCorpus headerConfig _) := rfl
  obtain ⟨-, hpart, hfound⟩ := units_partitioned.2 pairedCorpus headerConfig _ h
  exact ⟨_, h, hpart, hfound 0 _ rfl, by decide +kernel⟩

end Grouping

end Layering
