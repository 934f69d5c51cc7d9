import Layering.Proofs.Meaning

/-!
# Paths that are not in normal form

A reference is brought into its normal form before it is looked up, and so are the
names of a unit, but not the path that a unit is known by. What follows from that:

* `Resolver.resolve_path_iff`: the path of a unit means the unit if it is in normal
  form, and otherwise only if no other unit stands in its way;
* `Resolver.names_nonempty_iff`: the names of a corpus are not empty if each path
  still names a file when its delimiters are taken off, and only then does a
  reference that nothing fits mean nothing.
-/

namespace Layering

open Reference

variable {c : Corpus} {config : ResolutionConfig} {roots : List String} {token : String}
  {i j : UnitId} {u v : SourceUnit}

/-! ## Own paths -/

namespace Corpus

theorem isSound_of_getElem? (h : c.units[i]? = some u) : u.IsSound :=
  ((firstDefect?_eq_none_iff [] List.nodup_nil).1 c.sound).1 u (List.mem_of_getElem? h)

/-- Units with the same path are the same unit. -/
theorem eq_of_path_eq (hu : c.units[i]? = some u) (hv : c.units[j]? = some v)
    (h : v.path = u.path) : j = i := by
  have hi : c.idOf? u.path = some i := idOf?_eq_some_iff.2 ⟨u, hu, rfl⟩
  have hj : c.idOf? u.path = some j := idOf?_eq_some_iff.2 ⟨v, hv, h⟩
  exact Option.some_inj.1 (hj.symm.trans hi)

/-- A unit that is meant by the normal form of its path although that is not its path: no
unit has it as its path or as a name below an include root, and no other unit has its
last component, or only later ones if the earliest counts. -/
structure Stands (c : Corpus) (config : ResolutionConfig) (i : UnitId) (u : SourceUnit) : Prop where
  nonempty : u.normalPath ≠ ""
  path : ∀ v ∈ c.units, v.path ≠ u.normalPath
  belowRoot : ∀ v ∈ c.units, ¬ BelowRoot config.includeRoots v.normalPath u.normalPath
  basename : ∀ j v, c.units[j]? = some v →
    Path.basename v.normalPath = Path.basename u.normalPath →
      j = i ∨ (config.mode = .firstMatch ∧ i < j)

/-- A unit whose path is in normal form is the only candidate for it. -/
theorem isCandidate_of_normal (hu : c.units[i]? = some u) (h : u.normalPath = u.path) :
    c.IsCandidate roots u.normalPath j ↔ j = i := by
  constructor
  · rintro ⟨fit, v, hv, hfits, hstronger⟩
    have hmem := List.mem_of_getElem? hu
    cases fit with
    | path => exact eq_of_path_eq hu hv (hfits.trans h)
    | belowRoot => exact absurd h.symm (hstronger .path (by decide) u hmem)
    | basename => exact absurd h.symm (hstronger .path (by decide) u hmem)
    | part => exact absurd h.symm (hstronger .path (by decide) u hmem)
  · rintro rfl
    exact ⟨.path, u, hu, h.symm, fun f hf => absurd hf List.not_mem_nil⟩

/-- Otherwise it is one by the last component of the path. -/
theorem isCandidate_of_stands (hu : c.units[i]? = some u) (h : c.Stands config i u) :
    c.IsCandidate config.includeRoots u.normalPath j ↔ ∃ v, c.units[j]? = some v ∧
      Path.basename v.normalPath = Path.basename u.normalPath := by
  constructor
  · rintro ⟨fit, v, hv, hfits, hstronger⟩
    have hmem := List.mem_of_getElem? hv
    cases fit with
    | path => exact absurd hfits (h.path v hmem)
    | belowRoot => exact absurd hfits (h.belowRoot v hmem)
    | basename => exact ⟨v, hv, hfits⟩
    | part =>
      have hbasename := hstronger .basename (by decide) u (List.mem_of_getElem? hu)
      exact absurd rfl hbasename
  · rintro ⟨v, hv, hbasename⟩
    exact ⟨.basename, v, hv, hbasename,
      List.forall_mem_cons.2 ⟨h.path, List.forall_mem_singleton.2 h.belowRoot⟩⟩

end Corpus

namespace Resolver

theorem normal_or_stands_of_resolved (hu : c.units[i]? = some u)
    (h : (ofCorpus c config).resolve u.path = .resolved i) :
    IsNormal u.path ∨ c.Stands config i u := by
  obtain ⟨hne, ⟨fit, u', hu', hfits, hstronger⟩, honly⟩ := resolve_eq_resolved_iff.1 h
  obtain rfl := Option.some_inj.1 (hu.symm.trans hu')
  cases fit with
  | path => exact .inl (normalize_eq_self_iff.1 hfits.symm)
  | belowRoot => exact absurd rfl (BelowRoot.ne hfits)
  | basename =>
    right
    exact {
      nonempty := hne
      path := hstronger .path (by decide)
      belowRoot := hstronger .belowRoot (by decide)
      basename := fun j v hv hbasename => honly j ⟨.basename, v, hv, hbasename, hstronger⟩ }
  | part =>
    have hbasename := hstronger .basename (by decide) u (List.mem_of_getElem? hu)
    exact absurd rfl hbasename

/-- The path of a unit means that unit if it is in normal form, or if no other unit
stands in its way. -/
theorem resolve_path_iff (hu : c.units[i]? = some u) :
    (ofCorpus c config).resolve u.path = .resolved i ↔
      IsNormal u.path ∨ c.Stands config i u := by
  refine ⟨normal_or_stands_of_resolved hu, ?_⟩
  rintro (h | h)
  · have h : u.normalPath = u.path := normalize_eq_self_iff.2 h
    have hne : u.normalPath ≠ "" := by
      intro hempty
      apply (Corpus.isSound_of_getElem? hu).path
      rw [SourceUnit.trimmedPath, ← h, hempty]
      rfl
    have honly : ∀ j, c.IsCandidate config.includeRoots u.normalPath j ↔ j = i := fun _ =>
      Corpus.isCandidate_of_normal hu h
    exact resolve_eq_resolved_iff.2 ⟨hne, (honly i).2 rfl, fun j hj => .inl ((honly j).1 hj)⟩
  · have hcandidate : ∀ j, c.IsCandidate config.includeRoots u.normalPath j ↔
        ∃ v, c.units[j]? = some v ∧ Path.basename v.normalPath = Path.basename u.normalPath :=
      fun _ => Corpus.isCandidate_of_stands hu h
    refine resolve_eq_resolved_iff.2 ⟨h.nonempty, (hcandidate i).2 ⟨u, hu, rfl⟩, fun j hj => ?_⟩
    obtain ⟨v, hv, hbasename⟩ := (hcandidate j).1 hj
    exact h.basename j v hv hbasename

/-- A header that is named from the current directory. -/
def hereHeader : SourceUnit := .ofReferences "./y.h" []

/-- A corpus in which no other unit stands in its way. -/
def hereCorpus : Corpus where
  units := [.ofReferences "src/x.h" [], hereHeader]
  sound := by decide +kernel

theorem stands_hereHeader : hereCorpus.Stands .standard 1 hereHeader where
  nonempty := by decide +kernel
  path := by decide +kernel
  belowRoot := by
    simp only [← mem_includeNames]
    decide +kernel
  basename j v hv hbasename := by
    match j with
    | 0 =>
      obtain rfl := Option.some_inj.1 hv
      revert hbasename
      decide +kernel
    | 1 => exact .inl rfl
    | j + 2 => cases hv

theorem resolve_path_iff_here : hereCorpus.units[1]? = some hereHeader ∧
    (ofCorpus hereCorpus .standard).resolve hereHeader.path = .resolved 1 := by
  have hunit : hereCorpus.units[1]? = some hereHeader := rfl
  exact ⟨hunit, (resolve_path_iff hunit).2 (.inr stands_hereHeader)⟩

/-- A header and its path from the current directory, as two units. -/
def twicePath : Corpus where
  units := [.ofReferences "x.h" [], .ofReferences "./x.h" []]
  sound := by decide +kernel

theorem own_path_means_other : (twicePath.units[1]?).map SourceUnit.path = some "./x.h" ∧
    ∀ mode, (ofCorpus twicePath ⟨mode, ["h"], ["c"], true, []⟩).resolve "./x.h" = .resolved 0 := by
  refine ⟨rfl, fun mode => ?_⟩
  cases mode <;> decide +kernel

end Resolver

/-! ## Empty names -/

namespace NameIndex

/-- Whether a name is listed anywhere. -/
def Lists (x : NameIndex) (n : String) : Prop :=
  n ∈ x.names.map Prod.fst ∨ n ∈ x.byIncludeName.keys ∨ n ∈ x.byBasename.keys

theorem mem_map_fst_namesBy {f : SourceUnit → List String} {n : String} :
    n ∈ (c.namesBy f).map Prod.fst ↔ ∃ u ∈ c.units, n ∈ f u := by
  rw [List.mem_map]
  constructor
  · rintro ⟨⟨n, i⟩, h, rfl⟩
    obtain ⟨u, hu, hn⟩ := Corpus.mem_namesBy.1 h
    exact ⟨u, List.mem_of_getElem? hu, hn⟩
  · rintro ⟨u, hu, hn⟩
    obtain ⟨i, hi⟩ := List.mem_iff_getElem?.1 hu
    exact ⟨(n, i), Corpus.mem_namesBy.2 ⟨u, hi, hn⟩, rfl⟩

/-- The names that are listed are those of the units. -/
theorem lists_ofCorpus_iff {n : String} :
    (ofCorpus c roots).Lists n ↔ ∃ u ∈ c.units, u.HasName roots n := by
  rw [Lists, names_ofCorpus, byIncludeName_ofCorpus, byBasename_ofCorpus, OrdMap.mem_keys_collect,
    OrdMap.mem_keys_collect, mem_map_fst_namesBy, mem_map_fst_namesBy, mem_map_fst_namesBy]
  simp only [SourceUnit.mem_names, mem_includeNames, List.mem_singleton]
  constructor
  · rintro (⟨u, hu, h⟩ | ⟨u, hu, h⟩ | ⟨u, hu, rfl⟩)
    · exact ⟨u, hu, h⟩
    · exact ⟨u, hu, .below h⟩
    · exact ⟨u, hu, .basename⟩
  · exact .inl

end NameIndex

/-- Whether a path names a file when its delimiters are taken off. -/
def SourceUnit.NamesFile (u : SourceUnit) : Prop := Path.lastComponent (bare u.path) ≠ []

instance (u : SourceUnit) : Decidable u.NamesFile :=
  inferInstanceAs (Decidable (Path.lastComponent (bare u.path) ≠ []))

theorem SourceUnit.hasName_empty_iff_not_namesFile : u.HasName roots "" ↔ ¬ u.NamesFile := by
  rw [hasName_empty_iff, normalPath, basename_normalize_eq_empty_iff, NamesFile, not_not]

/-- A token that nothing in a corpus fits: no name contains it, it ends with none but an
empty one, and it is no path, no name below an include root and has no last component of
a unit. -/
structure Resolver.FitsNothing (r : Resolver) (roots : List String) (token : String) : Prop where
  contains : ∀ n, r.index.Lists n → ¬ token.toList <:+: n.toList
  endsWith : ∀ n, r.index.Lists n → n ≠ "" → ¬ n.toList <:+ token.toList
  path : ∀ u ∈ r.corpus.units, u.path ≠ token
  belowRoot : ∀ u ∈ r.corpus.units, ¬ BelowRoot roots u.normalPath token
  basename : ∀ u ∈ r.corpus.units, Path.basename u.normalPath ≠ Path.basename token

namespace Resolver

/-- Whether nothing fits a token can be read off the names of the units. -/
theorem fitsNothing_of_names (config : ResolutionConfig)
    (hnames : ∀ u ∈ c.units, ∀ n ∈ u.names config.includeRoots,
      ¬ Text.contains n token ∧ (n ≠ "" → ¬ Text.endsWith token n))
    (hunits : ∀ u ∈ c.units, u.path ≠ token ∧
      token ∉ includeNames config.includeRoots u.normalPath ∧
        Path.basename u.normalPath ≠ Path.basename token) :
    (ofCorpus c config).FitsNothing config.includeRoots token := by
  have hlists : ∀ n, (ofCorpus c config).index.Lists n →
      ¬ Text.contains n token ∧ (n ≠ "" → ¬ Text.endsWith token n) := fun n hn => by
    obtain ⟨u, hu, hn⟩ := NameIndex.lists_ofCorpus_iff.1 hn
    exact hnames u hu n (SourceUnit.mem_names.2 hn)
  exact {
    contains := fun n hn => by
      rw [← Text.occurs_iff]
      exact (hlists n hn).1
    endsWith := fun n hn hne => by
      rw [← List.isSuffixOf_iff_suffix]
      exact (hlists n hn).2 hne
    path := fun u hu => (hunits u hu).1
    belowRoot := fun u hu => by
      rw [← mem_includeNames]
      exact (hunits u hu).2.1
    basename := fun u hu => (hunits u hu).2.2 }

/-- The units with an empty name are the candidates for a token that nothing fits. -/
theorem FitsNothing.isCandidate_iff
    (h : (ofCorpus c config).FitsNothing config.includeRoots token) :
    c.IsCandidate config.includeRoots token i ↔
      ∃ u, c.units[i]? = some u ∧ u.HasName config.includeRoots "" := by
  constructor
  · rintro ⟨fit, u, hu, hfits, -⟩
    have hmem := List.mem_of_getElem? hu
    cases fit with
    | path => exact absurd hfits (h.path u hmem)
    | belowRoot => exact absurd hfits (h.belowRoot u hmem)
    | basename => exact absurd hfits (h.basename u hmem)
    | part =>
      obtain ⟨n, hn, hpart⟩ := hfits
      have hlists := NameIndex.lists_ofCorpus_iff.2 ⟨u, hmem, hn⟩
      have hsuffix := hpart.resolve_left (h.contains n hlists)
      have hempty : n = "" := by
        by_contra hne
        exact h.endsWith n hlists hne hsuffix
      exact ⟨u, hu, hempty ▸ hn⟩
  · rintro ⟨u, hu, hn⟩
    refine ⟨.part, u, hu, ⟨"", hn, .inr (List.nil_suffix)⟩, ?_⟩
    exact List.forall_mem_cons.2 ⟨h.path, List.forall_mem_cons.2 ⟨h.belowRoot,
      List.forall_mem_singleton.2 h.basename⟩⟩

/-- It means nothing if no unit has an empty name. -/
theorem FitsNothing.resolve_eq_unresolved_iff {reference : String}
    (h : (ofCorpus c config).FitsNothing config.includeRoots (normalize reference)) :
    (ofCorpus c config).resolve reference = .unresolved ↔
      ∀ u ∈ c.units, ¬ u.HasName config.includeRoots "" := by
  rw [Resolver.resolve_eq_unresolved_iff]
  simp only [h.isCandidate_iff]
  constructor
  · rintro (hempty | hnone) u hu hn
    · -- Every name contains the empty token.
      have hlists := NameIndex.lists_ofCorpus_iff.2 ⟨u, hu, hn⟩
      have hpart : (normalize reference).toList <:+: "".toList := by simp [hempty]
      exact h.contains "" hlists hpart
    · obtain ⟨i, hi⟩ := List.mem_iff_getElem?.1 hu
      exact hnone i ⟨u, hi, hn⟩
  · intro hnone
    right
    rintro i ⟨u, hu, hn⟩
    exact hnone u (List.mem_of_getElem? hu) hn

/-- The names of a corpus are not empty if every path names a file when its delimiters
are taken off, and in no other case. Then, and only then, a reference that nothing fits
means nothing. -/
theorem names_nonempty_iff (c : Corpus) (config : ResolutionConfig) :
    ((∀ n, (ofCorpus c config).index.Lists n → n ≠ "") ↔ ∀ u ∈ c.units, u.NamesFile) ∧
    ∀ reference, (ofCorpus c config).FitsNothing config.includeRoots (normalize reference) →
      ((ofCorpus c config).resolve reference = .unresolved ↔ ∀ u ∈ c.units, u.NamesFile) := by
  have hfile : (∀ u ∈ c.units, u.NamesFile) ↔
      ∀ u ∈ c.units, ¬ u.HasName config.includeRoots "" := by
    simp only [SourceUnit.hasName_empty_iff_not_namesFile, not_not]
  constructor
  · rw [hfile]
    constructor
    · intro h u hu hn
      exact h "" (NameIndex.lists_ofCorpus_iff.2 ⟨u, hu, hn⟩) rfl
    · rintro h n hlists rfl
      obtain ⟨u, hu, hn⟩ := NameIndex.lists_ofCorpus_iff.1 hlists
      exact h u hu hn
  · intro reference h
    rw [hfile]
    exact h.resolve_eq_unresolved_iff

/-- A corpus with a header below an include root. -/
def vendorCorpus : Corpus where
  units := [.ofReferences "a.c" [], .ofReferences "vendor/include/zlib.h" []]
  sound := by decide +kernel

theorem names_nonempty_iff_vendor :
    (ofCorpus vendorCorpus .standard).FitsNothing ["include"] (normalize "<no/such.h>") ∧
      (∀ u ∈ vendorCorpus.units, u.NamesFile) ∧
      (ofCorpus vendorCorpus .standard).resolve "<no/such.h>" = .unresolved := by
  have h : (ofCorpus vendorCorpus .standard).FitsNothing ["include"] (normalize "<no/such.h>") :=
    fitsNothing_of_names .standard (by decide +kernel) (by decide +kernel)
  have hfile : ∀ u ∈ vendorCorpus.units, u.NamesFile := by decide +kernel
  exact ⟨h, hfile, ((names_nonempty_iff vendorCorpus .standard).2 _ h).2 hfile⟩

/-- A corpus with a unit whose path is a quote. -/
def quoteCorpus : Corpus where
  units := [.ofReferences "\"" [], .ofReferences "a.c" []]
  sound := by decide +kernel

theorem unknown_means_quote : (ofCorpus quoteCorpus .standard).index.Lists "" ∧
    (ofCorpus quoteCorpus .standard).FitsNothing ["include"] (normalize "no_such.h") ∧
      (ofCorpus quoteCorpus .standard).resolve "no_such.h" = .resolved 0 := by
  refine ⟨.inl (by decide +kernel), ?_, by decide +kernel⟩
  exact fitsNothing_of_names .standard (by decide +kernel) (by decide +kernel)

end Resolver

end Layering
