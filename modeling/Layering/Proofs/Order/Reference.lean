import Layering.Proofs.Order.Renaming
import Layering.Proofs.Reference

/-!
# References among reordered units

In strict mode no reference means a unit for its place in the corpus, so what a
reference means follows the renaming of the ids, up to the order of the
candidates of an ambiguous one (`Resolver.renamed_resolve`).
-/

namespace Layering

variable {σ : Equiv.Perm UnitId} {c d : Corpus}

/-- A resolution follows a renaming of ids, but for the order of candidates. -/
inductive Resolution.Renamed (σ : Equiv.Perm UnitId) : Resolution → Resolution → Prop
  | resolved (id : UnitId) : Renamed σ (.resolved id) (.resolved (σ id))
  | unresolved : Renamed σ .unresolved .unresolved
  | ambiguous {ids ids' : List UnitId} (perm : (ids.map σ).Perm ids') :
    Renamed σ (.ambiguous ids) (.ambiguous ids')

namespace Corpus

/-- A condition on units holds of the same units in the other order. -/
theorem Renames.perm_idsWhere (h : Renames σ c d) (p : SourceUnit → Bool) :
    ((c.idsWhere p).map σ).Perm (d.idsWhere p) :=
  perm_map_of_mem_iff (c.nodup_idsWhere p) (d.nodup_idsWhere p) fun i => by
    rw [mem_idsWhere, mem_idsWhere, h i]

theorem Renames.perm_idsWhereFirst (h : Renames σ c d) (ps : List (SourceUnit → Bool)) :
    ((c.idsWhereFirst ps).map σ).Perm (d.idsWhereFirst ps) := by
  induction ps with
  | nil => exact .nil
  | cons p ps ih =>
    have hnil : c.idsWhere p = [] ↔ d.idsWhere p = [] := by
      rw [← List.length_eq_zero_iff, ← List.length_eq_zero_iff, ← (h.perm_idsWhere p).length_eq,
        List.length_map]
    rw [idsWhereFirst, idsWhereFirst]
    by_cases hp : c.idsWhere p = []
    · rwa [if_pos hp, if_pos (hnil.1 hp)]
    · rw [if_neg hp, if_neg (mt hnil.2 hp)]
      exact h.perm_idsWhere p

end Corpus

namespace Resolver

variable {r s : Resolver} {config : ResolutionConfig} {l m : List UnitId}

/-- In strict mode candidates mean the same in whatever order they stand. -/
theorem renamed_pick (hr : r.mode = .strict) (hs : s.mode = .strict) (hl : l.Pairwise (· < ·))
    (hm : m.Pairwise (· < ·)) (h : (l.map σ).Perm m) : (r.pick l).Renamed σ (s.pick m) := by
  rw [pick_strict hr, pick_strict hs, eraseReps_eq_self hl, eraseReps_eq_self hm]
  -- Only whether there is no candidate, one, or several counts.
  match l, h with
  | [], h =>
    obtain rfl := h.symm.eq_nil
    exact .unresolved
  | [a], h =>
    obtain rfl := List.perm_singleton.1 h.symm
    exact .resolved a
  | a :: b :: l, h =>
    match m, h with
    | [], h => cases h.eq_nil
    | [x], h => cases List.perm_singleton.1 h
    | x :: y :: m, h => exact .ambiguous h

/-- What a reference means follows the renaming. -/
theorem renamed_resolve (h : Corpus.Renames σ c d) (hmode : config.mode = .strict)
    (reference : String) : ((ofCorpus c config).resolve reference).Renamed σ
      ((ofCorpus d config).resolve reference) := by
  rw [resolve_ofCorpus, resolve_ofCorpus]
  split
  · exact .unresolved
  · exact renamed_pick hmode hmode (c.ascending_idsWhereFirst _) (d.ascending_idsWhereFirst _)
      (h.perm_idsWhereFirst _)

end Resolver

end Layering
