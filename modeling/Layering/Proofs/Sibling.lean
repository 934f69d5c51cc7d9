import Layering.Proofs.Pairing

/-!
# Sources beside headers

A header is paired with the unit at its path with one of the extensions of sources in the
place of its own. Whether a unit is a source is told by its extension too, but without
regard to the case of its letters, so there can be sources beside a header that it is not
paired with.

* `Grouping.exists_companion_iff`: a header has a companion if the extension of a source
  beside it is spelled as in the configuration;
* `Grouping.joinsSource_iff`: when a header is in the group of a source beside it.
-/

namespace Layering

namespace ResolutionConfig

/-- A path beside a header: that of a source that is no header, with the directory and the
stem of the header. -/
structure Beside (config : ResolutionConfig) (header path : String) : Prop where
  source : config.isSource path
  notHeader : ¬ config.isHeader path
  stem : Path.stem path = Path.stem header

/-- The extension of a path is one of those of sources, letter by letter. -/
def Spelled (config : ResolutionConfig) (path : String) : Prop :=
  ∃ e ∈ config.sourceExtensions, Path.extension? path = some e

/-- No extension is one of headers and one of sources. -/
def Apart (config : ResolutionConfig) : Prop :=
  ∀ e ∈ config.sourceExtensions, ∀ x ∈ config.headerExtensions, ¬ Text.eqIgnoreAsciiCase x e

instance (config : ResolutionConfig) : Decidable config.Apart :=
  inferInstanceAs (Decidable (∀ e ∈ config.sourceExtensions, ∀ x ∈ config.headerExtensions,
    ¬ Text.eqIgnoreAsciiCase x e))

variable {config : ResolutionConfig} {p e : String} {es : List String}

theorem hasExtension_iff (h : Path.extension? p = some e) :
    hasExtension p es ↔ ∃ x ∈ es, Text.eqIgnoreAsciiCase x e := by
  rw [hasExtension, h]
  exact List.any_eq_true

theorem isSource_of_spelled (h : config.Spelled p) : config.isSource p := by
  obtain ⟨e, he, hext⟩ := h
  exact (hasExtension_iff hext).2 ⟨e, he, beq_self_eq_true _⟩

theorem not_isHeader_of_spelled (ha : config.Apart) (h : config.Spelled p) :
    ¬ config.isHeader p := by
  obtain ⟨e, he, hext⟩ := h
  intro hh
  obtain ⟨x, hx, heq⟩ := (hasExtension_iff hext).1 hh
  exact ha e he x hx heq

end ResolutionConfig

namespace Grouping

variable {corpus : Corpus} {classifier : Classifier} {config : ResolutionConfig}
  {i j : UnitId} {u v s : SourceUnit}

/-! ## Companions -/

theorem companion?_of_not_isHeader (corpus : Corpus) {p : String} (h : ¬ config.isHeader p) :
    companion? corpus config p = none := if_neg h

/-- A header has a companion if there is a unit with one of the extensions of sources in the
place of its own. -/
theorem companion?_eq_none_iff {p : String} (h : config.isHeader p) :
    companion? corpus config p = none ↔ ∀ e ∈ config.sourceExtensions,
      ∀ s ∈ corpus.units, s.path ≠ Path.withExtension (Path.stem p) e := by
  rw [companion?, if_pos h, List.findSome?_eq_none_iff]
  refine forall_congr' fun e => imp_congr_right fun _ => ?_
  rw [Option.eq_none_iff_forall_ne_some]
  constructor
  · intro hnone s hs hpath
    obtain ⟨j, hj⟩ := List.mem_iff_getElem?.1 hs
    exact hnone j (Corpus.idOf?_eq_some_iff.2 ⟨s, hj, hpath⟩)
  · intro hnone j hj
    obtain ⟨s, hs, hpath⟩ := Corpus.idOf?_eq_some_iff.1 hj
    exact hnone s (List.mem_of_getElem? hs) hpath

/-- A companion stands beside its header, and its extension is spelled as configured. -/
theorem beside_of_companion? (he : SourceExtensions config) (ha : config.Apart) {p : String}
    (hc : companion? corpus config p = some j) (hv : corpus.units[j]? = some v) :
    config.Beside p v.path ∧ config.Spelled v.path := by
  obtain ⟨hp, e, hmem, hid⟩ := exists_of_companion? hc
  obtain ⟨v', hv', hpath⟩ := Corpus.idOf?_eq_some_iff.1 hid
  obtain rfl := Option.some_inj.1 (hv.symm.trans hv')
  have hext := isSome_extension?_of_isHeader hp
  have hspelled : config.Spelled v.path :=
    ⟨e, hmem, hpath ▸ Path.extension?_withExtension hext (he e hmem)⟩
  refine ⟨⟨ResolutionConfig.isSource_of_spelled hspelled,
    ResolutionConfig.not_isHeader_of_spelled ha hspelled, ?_⟩, hspelled⟩
  rw [hpath]
  exact Path.stem_withExtension hext (he e hmem)

/-- A header has a companion if the extension of a source beside it is spelled as
configured. -/
theorem exists_companion_iff (he : SourceExtensions config) (ha : config.Apart) {p : String}
    (hp : config.isHeader p) : (∃ j, companion? corpus config p = some j) ↔
      ∃ s ∈ corpus.units, config.Beside p s.path ∧ config.Spelled s.path := by
  constructor
  · rintro ⟨j, hj⟩
    obtain ⟨v, hv⟩ := exists_unit_of_companion? hj
    exact ⟨v, List.mem_of_getElem? hv, beside_of_companion? he ha hj hv⟩
  · rintro ⟨s, hs, hbeside, e, hmem, hext⟩
    rw [← Option.ne_none_iff_exists']
    intro hnone
    refine (companion?_eq_none_iff hp).1 hnone e hmem s hs ?_
    rw [← hbeside.stem]
    exact Path.eq_withExtension hext

/-! ## Groups -/

/-- A unit is in the group of a source beside it. -/
def JoinsSource (corpus : Corpus) (classifier : Classifier) (config : ResolutionConfig)
    (i : UnitId) (u : SourceUnit) : Prop :=
  ∃ j s, corpus.units[j]? = some s ∧ config.Beside u.path s.path ∧
    (ofCorpus corpus classifier config).groupOf j = (ofCorpus corpus classifier config).groupOf i

/-- A source beside a unit is in its group if it has the classification of the path that the
unit's comes from. -/
theorem joinsSource_iff_origin (hp : config.pairCompanionHeaders)
    (hu : corpus.units[i]? = some u) : JoinsSource corpus classifier config i u ↔
      ∃ s ∈ corpus.units, config.Beside u.path s.path ∧
        some (classifier.classify s.path) = corpus.units[origin corpus config i]?.map
          fun v => classifier.classify v.path := by
  have hsame : ∀ {j : UnitId} {s : SourceUnit}, corpus.units[j]? = some s →
      config.Beside u.path s.path →
      ((ofCorpus corpus classifier config).groupOf j =
          (ofCorpus corpus classifier config).groupOf i ↔
        some (classifier.classify s.path) = corpus.units[origin corpus config i]?.map
          fun v => classifier.classify v.path) := fun {j s} hs hbeside => by
    have hnone := companion?_of_not_isHeader corpus hbeside.notHeader
    rw [groupOf_eq_iff hs hu, getElem?_classifications_eq_origin hp hs,
      getElem?_classifications_eq_origin hp hu, origin_of_none hs hnone, hs, Option.map_some]
  constructor
  · rintro ⟨j, s, hs, hbeside, hgroup⟩
    exact ⟨s, List.mem_of_getElem? hs, hbeside, (hsame hs hbeside).1 hgroup⟩
  · rintro ⟨s, hmem, hbeside, hclass⟩
    obtain ⟨j, hs⟩ := List.mem_iff_getElem?.1 hmem
    exact ⟨j, s, hs, hbeside, (hsame hs hbeside).2 hclass⟩

/-- A header is in the group of a source beside it if one has the classification of the path
that its own comes from. Where extensions are extensions and those of headers are none of
sources, that is so if the extension of one is spelled as configured; otherwise only by
chance, if one is classified as the header is by its own path. -/
theorem joinsSource_iff (hp : config.pairCompanionHeaders) (hu : corpus.units[i]? = some u)
    (hh : config.isHeader u.path) :
    (JoinsSource corpus classifier config i u ↔
      ∃ s ∈ corpus.units, config.Beside u.path s.path ∧
        some (classifier.classify s.path) = corpus.units[origin corpus config i]?.map
          fun v => classifier.classify v.path) ∧
    (SourceExtensions config → config.Apart →
      (JoinsSource corpus classifier config i u ↔
        (∃ s ∈ corpus.units, config.Beside u.path s.path ∧ config.Spelled s.path) ∨
          ∃ s ∈ corpus.units, config.Beside u.path s.path ∧
            classifier.classify s.path = classifier.classify u.path)) := by
  refine ⟨joinsSource_iff_origin hp hu, fun he ha => ?_⟩
  rw [← exists_companion_iff he ha hh]
  cases hc : companion? corpus config u.path with
  | none =>
    rw [joinsSource_iff_origin hp hu, origin_of_none hu hc, hu]
    simp
  | some j =>
    obtain ⟨v, hv⟩ := exists_unit_of_companion? hc
    refine iff_of_true ⟨j, v, hv, (beside_of_companion? he ha hc hv).1, ?_⟩ (.inl ⟨j, rfl⟩)
    obtain ⟨g, hg⟩ : ∃ g, Placed corpus classifier config i u g := exists_placed he hu
    obtain ⟨-, -, -, hgroup⟩ := hg.paired j hp hc
    exact hgroup

/-- A header with two sources beside it, the extension of one of which is in capitals. -/
def capitalAndSmall : Corpus where
  units := [.ofReferences "lib/a.C" [], .ofReferences "lib/a.h" [], .ofReferences "lib/a.cc" []]
  sound := by decide +kernel

theorem joinsSource_iff_capitalAndSmall : ∃ classifier,
    headerConfig.rules.compile = .ok classifier ∧
      ResolutionConfig.standard.pairCompanionHeaders ∧ SourceExtensions .standard ∧
      ResolutionConfig.standard.Apart ∧
      capitalAndSmall.units[1]? = some (.ofReferences "lib/a.h" []) ∧
      ResolutionConfig.standard.isHeader "lib/a.h" ∧
      JoinsSource capitalAndSmall classifier .standard 1 (.ofReferences "lib/a.h" []) := by
  have hheader : ResolutionConfig.standard.isHeader "lib/a.h" := by decide +kernel
  have he : SourceExtensions .standard := by decide +kernel
  have ha : ResolutionConfig.standard.Apart := by decide +kernel
  have hbeside : ResolutionConfig.standard.Beside "lib/a.h" "lib/a.cc" :=
    ⟨by decide +kernel, by decide +kernel, by decide +kernel⟩
  refine ⟨_, rfl, rfl, he, ha, rfl, hheader, ?_⟩
  refine ((joinsSource_iff rfl rfl hheader).2 he ha).2 (.inl ⟨.ofReferences "lib/a.cc" [], ?_, ?_⟩)
  · decide
  · exact ⟨hbeside, "cc", by decide, by decide +kernel⟩

/-- A header with one source beside it, the extension of which is in capitals. -/
def capitalOnly : Corpus where
  units := [.ofReferences "a.C" [], .ofReferences "a.h" []]
  sound := by decide +kernel

theorem capital_extension_not_joined : ∃ classifier,
    headerConfig.rules.compile = .ok classifier ∧
      ResolutionConfig.standard.pairCompanionHeaders ∧
      capitalOnly.units[1]? = some (.ofReferences "a.h" []) ∧
      ResolutionConfig.standard.isHeader "a.h" ∧
      (∃ s ∈ capitalOnly.units, ResolutionConfig.standard.Beside "a.h" s.path) ∧
      ¬ JoinsSource capitalOnly classifier .standard 1 (.ofReferences "a.h" []) := by
  have hheader : ResolutionConfig.standard.isHeader "a.h" := by decide +kernel
  have hbeside : ResolutionConfig.standard.Beside "a.h" "a.C" :=
    ⟨by decide +kernel, by decide +kernel, by decide +kernel⟩
  refine ⟨_, rfl, rfl, rfl, hheader, ⟨.ofReferences "a.C" [], by decide, hbeside⟩, ?_⟩
  rintro ⟨j, s, hs, hbeside, hgroup⟩
  match j with
  | 0 => exact absurd hgroup (by decide +kernel)
  | 1 =>
    obtain rfl := Option.some_inj.1 hs
    exact hbeside.notHeader hheader
  | j + 2 => cases hs

end Grouping

end Layering
