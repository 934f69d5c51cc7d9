import Layering.Proofs.Order.Grouping
import Layering.Proofs.Partition

/-!
# Groups of headers and their companions

The group of a unit has the classification that the unit ends up with
(`Grouping.exists_group_of_classification`), and two units share a group if they end up
with the same one (`Grouping.groupOf_eq_iff`). So if the extensions of sources are
extensions, a header that is paired is in the group of its companion, which is the group
that the companion's own path asks for, whatever the order of the units
(`Grouping.paired_by_companion`).
-/

namespace Layering.Grouping

variable {corpus : Corpus} {classifier : Classifier} {config : ResolutionConfig}
  {i j : UnitId} {u v : SourceUnit} {k : Classification}

/-! ## Groups and classifications -/

theorem exists_classification (classifier : Classifier) (config : ResolutionConfig)
    (hu : corpus.units[i]? = some u) :
    ∃ k, (classifications corpus classifier config)[i]? = some k := by
  have hi : i < (classifications corpus classifier config).length := by
    rw [length_classifications]
    exact (List.getElem?_eq_some_iff.1 hu).1
  exact ⟨_, List.getElem?_eq_getElem hi⟩

/-- A unit has one classification among the classified units. -/
theorem getElem?_of_mem_classified (hu : corpus.units[i]? = some u)
    (h : (k, u) ∈ classified corpus classifier config) :
    (classifications corpus classifier config)[i]? = some k := by
  obtain ⟨j, hj⟩ := List.mem_iff_getElem?.1 h
  obtain ⟨hk, hu'⟩ := List.getElem?_zip_eq_some.1 hj
  have hi : corpus.idOf? u.path = some i := Corpus.idOf?_eq_some_iff.2 ⟨u, hu, rfl⟩
  have hj : corpus.idOf? u.path = some j := Corpus.idOf?_eq_some_iff.2 ⟨u, hu', rfl⟩
  rwa [Option.some_inj.1 (hi.symm.trans hj)]

/-- The group of a unit has the classification of the unit. -/
theorem exists_group_of_classification (hu : corpus.units[i]? = some u)
    (hk : (classifications corpus classifier config)[i]? = some k) :
    ∃ g, (ofCorpus corpus classifier config).group?
        ((ofCorpus corpus classifier config).groupOf i) = some g ∧
      u.path ∈ g.units ∧ g.classification = k := by
  obtain ⟨k', us, hmem, he⟩ := exists_entry_groupOf classifier config hu
  obtain rfl := Option.some_inj.1 (hk.symm.trans (getElem?_of_mem_classified hu hmem))
  have hget : (ofCorpus corpus classifier config).group?
      ((ofCorpus corpus classifier config).groupOf i) =
        some (.ofUnits ((ofCorpus corpus classifier config).groupOf i) k us) := by
    rw [group?, getElem?_groups, he]
    rfl
  exact ⟨_, hget, (mem_units_iff (List.mem_of_getElem? he) hmem).2 rfl,
    Group.classification_ofUnits⟩

/-- Two units are in the same group if they have the same classification. -/
theorem groupOf_eq_iff (hu : corpus.units[i]? = some u) (hv : corpus.units[j]? = some v) :
    (ofCorpus corpus classifier config).groupOf i =
        (ofCorpus corpus classifier config).groupOf j ↔
      (classifications corpus classifier config)[i]? =
        (classifications corpus classifier config)[j]? := by
  constructor
  · intro h
    obtain ⟨k, hk⟩ := exists_classification classifier config hu
    obtain ⟨l, hl⟩ := exists_classification classifier config hv
    obtain ⟨g, hg, -, rfl⟩ := exists_group_of_classification hu hk
    obtain ⟨g', hg', -, rfl⟩ := exists_group_of_classification hv hl
    rw [h, hg', Option.some_inj] at hg
    rw [hk, hl, hg]
  · intro h
    simp only [groupOf, ofCorpus, List.getD_eq_getElem?_getD, List.getElem?_map, h]

/-! ## Paired headers -/

/-- What the group of a unit has to do with the companion of the unit. -/
structure Placed (corpus : Corpus) (classifier : Classifier) (config : ResolutionConfig)
    (i : UnitId) (u : SourceUnit) (g : Group) : Prop where
  group : (ofCorpus corpus classifier config).group?
    ((ofCorpus corpus classifier config).groupOf i) = some g
  member : u.path ∈ g.units
  /-- A header with a companion has the classification of the companion's path, and the
  companion is in its group. -/
  paired : ∀ j, config.pairCompanionHeaders → companion? corpus config u.path = some j →
    ∃ s, corpus.units[j]? = some s ∧ g.classification = classifier.classify s.path ∧
      (ofCorpus corpus classifier config).groupOf j =
        (ofCorpus corpus classifier config).groupOf i
  /-- Any other unit has that of its own path. -/
  own : (config.pairCompanionHeaders → companion? corpus config u.path = none) →
    g.classification = classifier.classify u.path

theorem getElem?_classifications (he : SourceExtensions config)
    (hu : corpus.units[i]? = some u) : (classifications corpus classifier config)[i]? =
      some (classifier.classify (keyUnit corpus config u).path) := by
  rw [classifications_eq he, List.getElem?_map, hu, Option.map_some]

theorem keyUnit_of_companion (hp : config.pairCompanionHeaders)
    (hc : companion? corpus config u.path = some j) (hv : corpus.units[j]? = some v) :
    keyUnit corpus config u = v := by
  rw [keyUnit, if_pos hp, leader_of_some hc hv]

theorem keyUnit_of_none (h : config.pairCompanionHeaders → companion? corpus config u.path = none) :
    keyUnit corpus config u = u := by
  unfold keyUnit
  split
  · next hp => exact leader_of_none (h hp)
  · rfl

/-- The companion of a unit counts for itself. -/
theorem keyUnit_companion (he : SourceExtensions config)
    (hc : companion? corpus config u.path = some j) (hv : corpus.units[j]? = some v) :
    keyUnit corpus config v = v := by
  unfold keyUnit
  split
  · exact leader_companion he hc hv
  · rfl

theorem exists_placed (he : SourceExtensions config) (hu : corpus.units[i]? = some u) :
    ∃ g, Placed corpus classifier config i u g := by
  have hk : (classifications corpus classifier config)[i]? =
      some (classifier.classify (keyUnit corpus config u).path) := getElem?_classifications he hu
  obtain ⟨g, hg, hmem, hclass⟩ := exists_group_of_classification hu hk
  refine ⟨g, hg, hmem, fun j hp hc => ?_, fun h => ?_⟩
  · obtain ⟨s, hs, -⟩ := companion?_companion he hc
    have hkey : keyUnit corpus config u = s := keyUnit_of_companion hp hc hs
    refine ⟨s, hs, by rw [hclass, hkey], (groupOf_eq_iff hs hu).2 ?_⟩
    rw [getElem?_classifications he hs, getElem?_classifications he hu, hkey,
      keyUnit_companion he hc hs]
  · rw [hclass, keyUnit_of_none h]

/-- If the extensions of sources are extensions, every unit is in the group that the path of
its companion asks for, or its own path if it has none, and a header is in the group of its
companion. The groups are the same for all orders of the units. -/
theorem paired_by_companion (corpus : Corpus) (classifier : Classifier)
    (config : ResolutionConfig) (he : SourceExtensions config) :
    (∀ (i : UnitId) u, corpus.units[i]? = some u → ∃ g, Placed corpus classifier config i u g) ∧
      ∀ d : Corpus, d.units.Perm corpus.units →
        (ofCorpus d classifier config).groups = (ofCorpus corpus classifier config).groups := by
  refine ⟨fun i u hu => exists_placed he hu, fun d hd => ?_⟩
  obtain ⟨σ, hσ⟩ := Corpus.exists_renames hd.symm
  exact groups_eq_of_renames he hσ

/-- A configuration in which an extension is that of headers and that of sources. -/
def overlapping : ResolutionConfig where
  mode := .strict
  headerExtensions := ["h", "c"]
  sourceExtensions := ["c", "h"]
  pairCompanionHeaders := true
  includeRoots := []

/-- The paired corpus in the other order. -/
def reversedCorpus : Corpus where
  units := pairedCorpus.units.reverse
  sound := by decide +kernel

/-- The first header joins its companion, which is a header and its own companion. -/
theorem paired_by_companion_overlapping : ∃ classifier,
    headerConfig.rules.compile = .ok classifier ∧ SourceExtensions overlapping ∧
      companion? pairedCorpus overlapping "a.h" = some 1 ∧
      companion? pairedCorpus overlapping "a.c" = some 1 ∧
      (∃ u g, pairedCorpus.units[0]? = some u ∧
        Placed pairedCorpus classifier overlapping 0 u g) ∧
      (ofCorpus reversedCorpus classifier overlapping).groups =
        (ofCorpus pairedCorpus classifier overlapping).groups := by
  have he : SourceExtensions overlapping := by decide +kernel
  refine ⟨_, rfl, he, by decide +kernel, by decide +kernel, ?_, ?_⟩
  · obtain ⟨g, hg⟩ := (paired_by_companion pairedCorpus _ overlapping he).1 0 _ rfl
    exact ⟨_, g, rfl, hg⟩
  · exact (paired_by_companion pairedCorpus _ overlapping he).2 reversedCorpus
      (List.reverse_perm _)

end Layering.Grouping
