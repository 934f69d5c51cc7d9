import Layering.Proofs.Closure
import Layering.Proofs.Corpus

/-!
# Dependencies of units

What the lists of dependencies hold for a unit: the other units that its
references mean (`UnitDependencies.mem_direct_of`), and what headers among them
lead to (`UnitDependencies.mem_transitive_of`). No unit is listed twice
(`UnitDependencies.nodup_all`).
-/

namespace Layering

/-- All dependencies are those of one unit after the other. -/
theorem Dependencies.flatMap_toList (d : Dependencies) :
    d.flatMap OrdSet.toList = (List.range d.length).flatMap fun u => (d.of u).toList := by
  have hmap : d = (List.range d.length).map d.of := by
    refine List.ext_getElem (by simp) fun u hu _ => ?_
    rw [List.getElem_map, List.getElem_range, of, List.getD_eq_getElem?_getD,
      List.getElem?_eq_getElem hu, Option.getD_some]
  conv => lhs; rw [hmap, List.flatMap_map]

namespace UnitDependencies

variable {r : Resolver} {config : ResolutionConfig} {limit : Nat} {i x : UnitId} {u : SourceUnit}

theorem mem_directOf : x ∈ directOf r (i, u) ↔
    x ≠ i ∧ ∃ token ∈ u.references, r.resolve token = .resolved x := by
  rw [directOf, OrdSet.mem_ofList, List.mem_filterMap]
  constructor
  · rintro ⟨token, ht, h⟩
    split at h
    · next id hid =>
      split at h
      · cases h
      · next hne =>
        obtain rfl := Option.some_inj.1 h
        exact ⟨hne, token, ht, hid⟩
    · cases h
  · rintro ⟨hx, token, ht, h⟩
    refine ⟨token, ht, ?_⟩
    rw [h]
    exact if_neg hx

theorem length_direct : (ofCorpus r config limit).direct.length = r.corpus.size := by
  rw [ofCorpus, List.length_map, Corpus.indexed, List.length_map, List.length_zipIdx, Corpus.size]

theorem length_transitive : (ofCorpus r config limit).transitive.length = r.corpus.size := by
  rw [ofCorpus, List.length_map, List.length_range]

/-- The direct dependencies of a unit are the other units that its references
mean. -/
theorem mem_direct_of : x ∈ (ofCorpus r config limit).direct.of i ↔
    ∃ u, r.corpus.units[i]? = some u ∧ x ≠ i ∧
      ∃ token ∈ u.references, r.resolve token = .resolved x := by
  rw [Dependencies.of, ofCorpus, List.getD_eq_getElem?_getD, List.getElem?_map,
    Corpus.getElem?_indexed]
  cases r.corpus.units[i]? with
  | none => simp
  | some u => simp [mem_directOf]

/-- The search for the further dependencies of a unit. -/
def closure (r : Resolver) (config : ResolutionConfig) (i : UnitId) : Closure :=
  ⟨i, r.corpus.indexed.map (directOf r), r.corpus.units.map fun u => config.isHeader u.path⟩

theorem isHeader_closure : (closure r config i).isHeader x =
    ((r.corpus.units[x]?).any fun u => config.isHeader u.path) := by
  rw [Closure.isHeader, closure, List.getD_eq_getElem?_getD, List.getElem?_map]
  cases r.corpus.units[x]? <;> rfl

/-- The further dependencies of a unit are what at most `limit` headers in a row
lead to. -/
theorem mem_transitive_of : x ∈ (ofCorpus r config limit).transitive.of i ↔
    i < r.corpus.size ∧ (closure r config i).Reaches limit x := by
  rw [← Closure.mem_transitive, Dependencies.of, ofCorpus, List.getD_eq_getElem?_getD,
    List.getElem?_map]
  by_cases hi : i < r.corpus.size
  · rw [List.getElem?_range hi, and_iff_right hi]
    rfl
  · rw [List.getElem?_eq_none_iff.2 (by simpa using hi), iff_false_right (fun h => hi h.1)]
    exact OrdSet.not_mem_empty x

theorem mem_all {d : UnitDependencies} :
    x ∈ d.all i ↔ x ∈ d.direct.of i ∨ x ∈ d.transitive.of i := by
  rw [all, List.mem_append, OrdSet.mem_toList, OrdSet.mem_toList]

/-- A unit is none of its further dependencies, and these are not direct. -/
theorem isNew_of_mem_transitive_of (h : x ∈ (ofCorpus r config limit).transitive.of i) :
    x ≠ i ∧ x ∉ (ofCorpus r config limit).direct.of i :=
  Closure.isNew_iff.1 (mem_transitive_of.1 h).2.1

/-- No dependency is listed twice: what is direct is not reached through headers. -/
theorem nodup_all (r : Resolver) (config : ResolutionConfig) (limit : Nat) (i : UnitId) :
    ((ofCorpus r config limit).all i).Nodup := by
  refine List.nodup_append.2 ⟨OrdSet.nodup_toList _, OrdSet.nodup_toList _, ?_⟩
  rintro x hd y ht rfl
  exact (isNew_of_mem_transitive_of ht).2 hd

end UnitDependencies

end Layering
