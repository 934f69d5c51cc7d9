import Layering.Proofs.Dependency
import Layering.Proofs.Reference

/-!
# Ids of a corpus

Ids that stand for units are places in the corpus: whatever a reference may mean
(`Resolver.lt_size_of_mem_ids`), and so every dependency of a unit
(`UnitDependencies.lt_size_of_mem_direct`, `UnitDependencies.lt_size_of_mem_transitive`).
-/

namespace Layering

variable {c : Corpus} {config : ResolutionConfig} {i x : UnitId}

namespace Corpus

theorem lt_size_of_getElem? {u : SourceUnit} (h : c.units[i]? = some u) : i < c.size :=
  (List.getElem?_eq_some_iff.1 h).1

theorem lt_size_of_mem_idsWhereFirst {ps : List (SourceUnit → Bool)}
    (h : i ∈ c.idsWhereFirst ps) : i < c.size := by
  induction ps with
  | nil => exact absurd h List.not_mem_nil
  | cons p ps ih =>
    rw [idsWhereFirst] at h
    split at h
    · exact ih h
    · obtain ⟨u, hu, -⟩ := mem_idsWhere.1 h
      exact lt_size_of_getElem? hu

end Corpus

/-- The units that a reference may mean. -/
def Resolution.ids : Resolution → List UnitId
  | resolved id => [id]
  | unresolved => []
  | ambiguous ids => ids

namespace Resolver

variable {r : Resolver} {ids : List UnitId}

theorem mem_of_mem_ids_pick (h : i ∈ (r.pick ids).ids) : i ∈ ids := by
  rw [← mem_eraseReps]
  unfold pick at h
  split at h
  · exact absurd h List.not_mem_nil
  · next heq => rwa [heq]
  · next heq _ =>
    rw [heq, List.mem_singleton.1 h]
    exact List.mem_cons_self ..
  · exact h

/-- A reference means units of the corpus only. -/
theorem lt_size_of_mem_ids {reference : String}
    (h : i ∈ ((ofCorpus c config).resolve reference).ids) : i < c.size := by
  rw [resolve_ofCorpus] at h
  split at h
  · exact absurd h List.not_mem_nil
  · exact Corpus.lt_size_of_mem_idsWhereFirst (mem_of_mem_ids_pick h)

end Resolver

namespace UnitDependencies

variable {limit : Nat}

/-- A unit depends directly on units of the corpus only. -/
theorem lt_size_of_mem_direct (h : x ∈ (ofCorpus (.ofCorpus c config) config limit).direct.of i) :
    x < c.size := by
  obtain ⟨u, -, -, token, -, hx⟩ := mem_direct_of.1 h
  have hmem : x ∈ ((Resolver.ofCorpus c config).resolve token).ids := by
    rw [hx]
    exact List.mem_singleton_self x
  exact Resolver.lt_size_of_mem_ids hmem

/-- So headers lead to units of the corpus only. -/
theorem lt_size_of_mem_transitive
    (h : x ∈ (ofCorpus (.ofCorpus c config) config limit).transitive.of i) : x < c.size := by
  obtain ⟨-, -, y, -, hx⟩ := mem_transitive_of.1 h
  have hdirect : x ∈ (ofCorpus (.ofCorpus c config) config limit).direct.of y := hx
  exact lt_size_of_mem_direct hdirect

end UnitDependencies

end Layering
