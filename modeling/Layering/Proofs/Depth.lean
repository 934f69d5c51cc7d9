import Layering.Proofs.Comparison
import Layering.Proofs.HeaderChain
import Layering.Proofs.Lookup

/-!
# Depth limits

A limit on the depth of a search for dependencies only takes some away
(`UnitDependencies.subperm_all_mono`). A chain of headers that leads somewhere can do
without going twice through the same header (`Closure.ChainTo.exists_nodup`), so a
limit that lets a search take as many headers in a row as there are takes none
(`Closure.mem_transitive_of_count_le`). How a report follows the limit of its
configuration is `Analysis.run_withDepthLimit`.
-/

namespace Layering

/-- The configuration with another depth limit. -/
def AnalysisConfig.withDepthLimit (c : AnalysisConfig) (n : UInt64) : AnalysisConfig :=
  { c with transitiveDepthLimit := n }

/-! ## Closures -/

namespace Closure

variable {c : Closure} {m n limit : Nat} {x h : UnitId} {hs hs' : List UnitId}

/-- The start of a chain leads to the header that comes next. -/
theorem ChainTo.of_append (hc : c.ChainTo (hs ++ h :: hs') x) : c.ChainTo hs h where
  headers y hy := hc.headers y (List.mem_append_left _ hy)
  linked := hc.linked.prefix ⟨hs' ++ [x], by simp⟩

/-- Where a chain leads, one leads that goes through no header twice. -/
theorem ChainTo.exists_nodup (hc : c.ChainTo hs x) :
    ∃ hs' : List UnitId, hs'.Nodup ∧ c.ChainTo hs' x := by
  induction hs using List.reverseRecOn generalizing x with
  | nil => exact ⟨[], .nil, hc⟩
  | append_singleton hs h ih =>
    obtain ⟨hc, hheader, hx⟩ := chainTo_concat.1 hc
    obtain ⟨hs', hnodup, hc'⟩ := ih hc
    by_cases hmem : h ∈ hs'
    · -- The chain has come through `h` before, and may go on from there.
      obtain ⟨start, rest, rfl⟩ := List.append_of_mem hmem
      refine ⟨start ++ [h], hnodup.sublist ?_, chainTo_concat.2 ⟨hc'.of_append, hheader, hx⟩⟩
      exact (List.singleton_sublist.2 List.mem_cons_self).append_left start
    · exact ⟨hs' ++ [h], List.nodup_append_comm.1 (List.nodup_cons.2 ⟨hmem, hnodup⟩),
        chainTo_concat.2 ⟨hc', hheader, hx⟩⟩

/-- A deeper search finds what a search finds. -/
theorem mem_transitive_mono (hle : m ≤ n) (hx : x ∈ c.transitive m) : x ∈ c.transitive n := by
  obtain ⟨hne, hdirect, hs, hpos, hlen, hc⟩ := mem_transitive_iff_chainTo.1 hx
  exact mem_transitive_iff_chainTo.2 ⟨hne, hdirect, hs, hpos, hlen.trans hle, hc⟩

/-- A search that may take as many headers in a row as there are finds the ends of all
chains. -/
theorem mem_transitive_of_count_le (hlimit : c.headers.count true ≤ limit) :
    x ∈ c.transitive limit ↔
      x ≠ c.unit ∧ x ∉ c.direct.of c.unit ∧ ∃ hs : List UnitId, hs ≠ [] ∧ c.ChainTo hs x := by
  rw [mem_transitive_iff_chainTo]
  refine and_congr_right fun _ => and_congr_right fun hdirect => ⟨?_, ?_⟩
  · rintro ⟨hs, hpos, -, hc⟩
    exact ⟨hs, List.length_pos_iff.1 hpos, hc⟩
  · rintro ⟨hs, -, hc⟩
    obtain ⟨hs', hnodup, hc'⟩ := hc.exists_nodup
    have hne : hs' ≠ [] := by
      rintro rfl
      exact hdirect (chainTo_nil.1 hc')
    have hlen := length_le_count_true hnodup hc'.headers
    exact ⟨hs', List.length_pos_iff.2 hne, hlen.trans hlimit, hc'⟩

end Closure

/-! ## Dependencies -/

/-- The number of headers in a corpus. -/
def Corpus.headerCount (corpus : Corpus) (config : ResolutionConfig) : Nat :=
  corpus.units.countP fun u => config.isHeader u.path

namespace UnitDependencies

variable {r : Resolver} {config : ResolutionConfig} {m n limit : Nat} {i x : UnitId}

/-- A chain of headers of a corpus: the first is a direct dependency of a unit, each
further one of the header before it, and the end of the last. -/
structure HeaderChain (d : UnitDependencies) (corpus : Corpus) (config : ResolutionConfig)
    (u : UnitId) (hs : List UnitId) (x : UnitId) : Prop where
  headers : ∀ h ∈ hs, ∃ s, corpus.units[h]? = some s ∧ config.isHeader s.path
  linked : (u :: (hs ++ [x])).IsChain fun a b => b ∈ d.direct.of a

theorem chainTo_closure_iff (limit : Nat) {hs : List UnitId} :
    (closure r config i).ChainTo hs x ↔
      (ofCorpus r config limit).HeaderChain r.corpus config i hs x := by
  have hheader : ∀ h, (closure r config i).isHeader h ↔
      ∃ s, r.corpus.units[h]? = some s ∧ config.isHeader s.path := fun h => by
    rw [isHeader_closure, Option.any_eq_true]
  constructor
  · intro hc
    exact ⟨fun h hh => (hheader h).1 (hc.headers h hh), hc.linked⟩
  · intro hc
    exact ⟨fun h hh => (hheader h).2 (hc.headers h hh), hc.linked⟩

theorem count_headers_closure (r : Resolver) (config : ResolutionConfig) (i : UnitId) :
    (closure r config i).headers.count true = r.corpus.headerCount config := by
  rw [closure, List.count_eq_countP, List.countP_map, Corpus.headerCount]
  exact List.countP_congr fun u _ => by simp

theorem mem_transitive_of_mono (hle : m ≤ n) (hx : x ∈ (ofCorpus r config m).transitive.of i) :
    x ∈ (ofCorpus r config n).transitive.of i := by
  rw [mem_transitive_of, ← Closure.mem_transitive] at hx ⊢
  exact ⟨hx.1, Closure.mem_transitive_mono hle hx.2⟩

theorem subperm_all_mono (r : Resolver) (config : ResolutionConfig) (hle : m ≤ n) (i : UnitId) :
    ((ofCorpus r config m).all i).Subperm ((ofCorpus r config n).all i) := by
  refine List.subperm_of_subset (nodup_all r config m i) fun x hx => ?_
  rw [mem_all] at hx ⊢
  exact hx.imp id (mem_transitive_of_mono hle)

/-- Under a limit that is no less than the number of headers, the further dependencies
of a unit are the ends of all chains of headers from it. -/
theorem mem_transitive_of_headerCount_le (hlimit : r.corpus.headerCount config ≤ limit) :
    x ∈ (ofCorpus r config limit).transitive.of i ↔
      x ≠ i ∧ x ∉ (ofCorpus r config limit).direct.of i ∧
        ∃ hs, hs ≠ [] ∧ (ofCorpus r config limit).HeaderChain r.corpus config i hs x := by
  rw [← count_headers_closure r config i] at hlimit
  rw [mem_transitive_of, ← Closure.mem_transitive, Closure.mem_transitive_of_count_le hlimit]
  simp only [chainTo_closure_iff limit]
  refine and_iff_right_of_imp ?_
  -- A chain starts with a direct dependency, so only units of the corpus have any.
  rintro ⟨-, -, hs, hne, hc⟩
  obtain ⟨h, hs, rfl⟩ := List.exists_cons_of_ne_nil hne
  have hh : h ∈ (ofCorpus r config limit).direct.of i := (List.isChain_cons_cons.1 hc.linked).1
  obtain ⟨u, hu, -⟩ := mem_direct_of.1 hh
  exact Corpus.lt_size_of_getElem? hu

/-- Such a limit may as well be larger. -/
theorem ofCorpus_of_headerCount_le (hlimit : r.corpus.headerCount config ≤ m) (hle : m ≤ n) :
    ofCorpus r config n = ofCorpus r config m := by
  have hparts : ofCorpus r config n =
      { ofCorpus r config m with transitive := (ofCorpus r config n).transitive } := rfl
  have htransitive : (ofCorpus r config n).transitive = (ofCorpus r config m).transitive := by
    refine List.map_congr_left fun i _ => OrdSet.ext_mem fun x => ?_
    rw [← count_headers_closure r config i] at hlimit
    exact (Closure.mem_transitive_of_count_le (hlimit.trans hle)).trans
      (Closure.mem_transitive_of_count_le hlimit).symm
  rw [hparts, htransitive]

end UnitDependencies

/-! ## Analyses -/

/-- Another analysis has the further dependencies of an analysis and perhaps more, so that
no edge between the groups, which are the same, weighs less. -/
structure Analysis.DeepenedBy (T : GraphTable) (corpus : Corpus) (a b : Analysis) : Prop where
  grouping : a.grouping = b.grouping
  direct : a.dependencies.direct = b.dependencies.direct
  transitive : ∀ u x, x ∈ a.dependencies.transitive.of u → x ∈ b.dependencies.transitive.of u
  raw : a.RawWithin T corpus b

namespace Analysis

variable {corpus : Corpus} {config : AnalysisConfig} {m n : UInt64}

theorem deepenedBy_build (T : GraphTable) (corpus : Corpus) (config : AnalysisConfig)
    (classifier : Classifier) (hle : m ≤ n) :
    (build corpus (config.withDepthLimit m) classifier).DeepenedBy T corpus
      (build corpus (config.withDepthLimit n) classifier) where
  grouping := rfl
  direct := rfl
  transitive _ _ := UnitDependencies.mem_transitive_of_mono (UInt64.le_iff_toNat_le.1 hle)
  raw := rawWithin_build T rfl
    (UnitDependencies.subperm_all_mono _ _ (UInt64.le_iff_toNat_le.1 hle))

/-- Under larger limits the same is found, and the same graphs are built. -/
theorem ofCorpus_withDepthLimit (hlimit : corpus.headerCount config.resolution ≤ m.toNat)
    (hle : m ≤ n) : UnitDependencies.ofCorpus (.ofCorpus corpus config.resolution)
        config.resolution n.toNat =
      UnitDependencies.ofCorpus (.ofCorpus corpus config.resolution) config.resolution m.toNat :=
  UnitDependencies.ofCorpus_of_headerCount_le hlimit (UInt64.le_iff_toNat_le.1 hle)

theorem build_withDepthLimit (hlimit : corpus.headerCount config.resolution ≤ m.toNat)
    (hle : m ≤ n) (classifier : Classifier) : build corpus (config.withDepthLimit n) classifier =
      build corpus (config.withDepthLimit m) classifier := by
  unfold build
  simp only [AnalysisConfig.withDepthLimit, ofCorpus_withDepthLimit hlimit hle]

theorem runIn_withDepthLimit (T : GraphTable)
    (hlimit : corpus.headerCount config.resolution ≤ m.toNat) (hle : m ≤ n) :
    runIn T corpus (config.withDepthLimit n) = runIn T corpus (config.withDepthLimit m) := by
  have hbuild (classifier : Classifier) : buildIn T corpus (config.withDepthLimit n) classifier =
      buildIn T corpus (config.withDepthLimit m) classifier := by
    unfold buildIn
    simp only [AnalysisConfig.withDepthLimit, ofCorpus_withDepthLimit hlimit hle]
  unfold runIn
  simp only [hbuild]
  rfl

/-- Two headers that include each other, between a unit and what both of them lead to. -/
def mutualCorpus : Corpus where
  units := [.ofReferences "a.c" ["b.h"], .ofReferences "b.h" ["c.h"],
    .ofReferences "c.h" ["b.h", "net/d.c"], .ofReferences "net/d.c" []]
  sound := by decide +kernel

end Analysis

end Layering
