import Layering.Proofs.Comparison
import Layering.Proofs.Dependency
import Layering.Proofs.Reference

/-!
# Strict analyses

Strict mode only leaves references without a meaning: one that means a unit means
the same unit if the earliest candidate counts (`Resolver.narrows_resolve`). So a
strict analysis finds a part of the dependencies (`Analysis.strict_partOf_firstMatch`):
what is direct stays direct, what headers lead to stays a dependency, though it may
become a direct one, and the edges between the groups, which are the same, weigh no
more.
-/

namespace Layering

/-- The configuration with another mode. -/
def ResolutionConfig.withMode (c : ResolutionConfig) (m : ResolutionMode) : ResolutionConfig :=
  { c with mode := m }

/-- The configuration with another mode of resolution. -/
def AnalysisConfig.withMode (c : AnalysisConfig) (m : ResolutionMode) : AnalysisConfig :=
  { c with resolution := c.resolution.withMode m }

/-! ## References -/

/-- A resolution says the same as another, or names its unit among other candidates. -/
inductive Resolution.Narrows : Resolution → Resolution → Prop
  | resolved (id : UnitId) : Narrows (.resolved id) (.resolved id)
  | unresolved : Narrows .unresolved .unresolved
  | ambiguous (ids : List UnitId) (id : UnitId) : Narrows (.ambiguous ids) (.resolved id)

namespace Resolver

variable {r s : Resolver} {c : Corpus} {config : ResolutionConfig}

theorem narrows_pick (hr : r.mode = .strict) (hs : s.mode = .firstMatch) (ids : List UnitId) :
    (r.pick ids).Narrows (s.pick ids) := by
  rw [pick_strict hr, pick_firstMatch hs, ← head?_eraseReps]
  match ids.eraseReps with
  | [] => exact .unresolved
  | [id] => exact .resolved id
  | id :: id' :: ids => exact .ambiguous _ id

/-- What a reference means in strict mode, it means if the earliest candidate counts. -/
theorem narrows_resolve (c : Corpus) (config : ResolutionConfig) (reference : String) :
    ((ofCorpus c (config.withMode .strict)).resolve reference).Narrows
      ((ofCorpus c (config.withMode .firstMatch)).resolve reference) := by
  rw [resolve_ofCorpus, resolve_ofCorpus]
  split
  · exact .unresolved
  · exact narrows_pick rfl rfl _

theorem resolved_of_strict {token : String} {id : UnitId}
    (h : (ofCorpus c (config.withMode .strict)).resolve token = .resolved id) :
    (ofCorpus c (config.withMode .firstMatch)).resolve token = .resolved id := by
  have hnarrows := narrows_resolve c config token
  rw [h] at hnarrows
  generalize (ofCorpus c (config.withMode .firstMatch)).resolve token = m at hnarrows ⊢
  cases hnarrows
  rfl

end Resolver

/-! ## Closures -/

namespace Closure

variable {a b : Closure} {n : Nat} {x : UnitId}

/-- A closure has at least the dependencies of another. -/
structure Extends (a b : Closure) : Prop where
  unit : b.unit = a.unit
  direct : ∀ i x, x ∈ a.direct.of i → x ∈ b.direct.of i
  isHeader : ∀ x, b.isHeader x = a.isHeader x

namespace Extends

variable (h : Extends a b)
include h

theorem within (hx : a.Within n x) : b.Within n x := by
  induction n generalizing x with
  | zero => exact hx.trans h.unit.symm
  | succ n ih =>
    rcases hx with hx | ⟨hheader, y, hy, hxy⟩
    · exact .inl (ih hx)
    · exact .inr ⟨(h.isHeader x).trans hheader, y, ih hy, h.direct y x hxy⟩

/-- What is reached is still reached, unless it has become a direct dependency. -/
theorem reaches (hx : a.Reaches n x) : x ∈ b.direct.of b.unit ∨ b.Reaches n x := by
  obtain ⟨hnew, y, hy, hxy⟩ := hx
  have hne : x ≠ b.unit := h.unit ▸ (isNew_iff.1 hnew).1
  exact or_iff_not_imp_left.2 fun hdirect =>
    ⟨isNew_iff.2 ⟨hne, hdirect⟩, y, h.within hy, h.direct y x hxy⟩

end Extends

end Closure

/-! ## Dependencies -/

namespace UnitDependencies

variable {c : Corpus} {config : ResolutionConfig} {limit : Nat} {i x : UnitId}

/-- The dependencies of a corpus under a mode. -/
def inMode (m : ResolutionMode) (c : Corpus) (config : ResolutionConfig) (limit : Nat) :
    UnitDependencies :=
  ofCorpus (.ofCorpus c (config.withMode m)) (config.withMode m) limit

theorem mem_direct_of_strict (h : x ∈ (inMode .strict c config limit).direct.of i) :
    x ∈ (inMode .firstMatch c config limit).direct.of i := by
  rw [inMode, mem_direct_of] at h ⊢
  obtain ⟨u, hu, hx, token, ht, hr⟩ := h
  exact ⟨u, hu, hx, token, ht, Resolver.resolved_of_strict hr⟩

theorem extends_closure (c : Corpus) (config : ResolutionConfig) (i : UnitId) :
    (closure (.ofCorpus c (config.withMode .strict)) (config.withMode .strict) i).Extends
      (closure (.ofCorpus c (config.withMode .firstMatch)) (config.withMode .firstMatch) i) := by
  refine ⟨rfl, fun j x h => ?_, fun x => ?_⟩
  · have hdirect : ∀ m, (inMode m c config 0).direct =
        (closure (.ofCorpus c (config.withMode m)) (config.withMode m) i).direct := fun _ => rfl
    rw [← hdirect] at h ⊢
    exact mem_direct_of_strict h
  · rw [isHeader_closure, isHeader_closure]
    rfl

/-- A dependency remains one, but may become a direct one. -/
theorem mem_all_of_strict (h : x ∈ (inMode .strict c config limit).all i) :
    x ∈ (inMode .firstMatch c config limit).all i := by
  rw [mem_all] at h ⊢
  rcases h with h | h
  · exact .inl (mem_direct_of_strict h)
  · obtain ⟨hi, hreaches⟩ := mem_transitive_of.1 h
    exact ((extends_closure c config i).reaches hreaches).imp id fun hr =>
      mem_transitive_of.2 ⟨hi, hr⟩

theorem subperm_all_of_strict (c : Corpus) (config : ResolutionConfig) (limit : Nat) (i : UnitId) :
    ((inMode .strict c config limit).all i).Subperm ((inMode .firstMatch c config limit).all i) :=
  List.subperm_of_subset (nodup_all _ _ limit i) fun _ => mem_all_of_strict

/-- The references that still mean nothing are those that nothing fitted. -/
theorem unresolvedOf_firstMatch (c : Corpus) (config : ResolutionConfig) (u : SourceUnit) :
    unresolvedOf (.ofCorpus c (config.withMode .firstMatch)) u =
      (unresolvedOf (.ofCorpus c (config.withMode .strict)) u).filter (·.reason = .notFound) := by
  rw [unresolvedOf, unresolvedOf, List.filter_filterMap]
  refine List.filterMap_congr fun token _ => ?_
  have hnarrows := Resolver.narrows_resolve c config token
  generalize (Resolver.ofCorpus c (config.withMode .strict)).resolve token = m at hnarrows ⊢
  generalize (Resolver.ofCorpus c (config.withMode .firstMatch)).resolve token = m' at hnarrows ⊢
  cases hnarrows <;> rfl

theorem unresolved_firstMatch (c : Corpus) (config : ResolutionConfig) (limit : Nat) :
    (inMode .firstMatch c config limit).unresolved =
      (inMode .strict c config limit).unresolved.filter (·.reason = .notFound) := by
  have hunresolved : ∀ m, (inMode m c config limit).unresolved =
      c.units.flatMap (unresolvedOf (.ofCorpus c (config.withMode m))) := fun _ => rfl
  rw [hunresolved, hunresolved, List.filter_flatMap]
  exact List.flatMap_congr fun u _ => unresolvedOf_firstMatch c config u

end UnitDependencies

/-! ## Analyses -/

/-- An analysis has a part of the dependencies of another between the same groups, and
leaves the other's references without a meaning too, among those that nothing fits. -/
structure Analysis.PartOf (T : GraphTable) (corpus : Corpus) (a b : Analysis) : Prop where
  grouping : a.grouping = b.grouping
  groups : a.report.groups = b.report.groups
  direct : ∀ u x, x ∈ a.dependencies.direct.of u → x ∈ b.dependencies.direct.of u
  all : ∀ u x, x ∈ a.dependencies.direct.of u ∨ x ∈ a.dependencies.transitive.of u →
    x ∈ b.dependencies.direct.of u ∨ x ∈ b.dependencies.transitive.of u
  raw : a.RawWithin T corpus b
  unresolvedReferences : b.report.unresolvedReferences =
    a.report.unresolvedReferences.filter (·.reason = .notFound)

namespace Analysis

variable (T : GraphTable) (corpus : Corpus) (config : AnalysisConfig)

theorem partOf_build (classifier : Classifier) :
    (build corpus (config.withMode .strict) classifier).PartOf T corpus
      (build corpus (config.withMode .firstMatch) classifier) where
  grouping := rfl
  groups := rfl
  direct _ _ := UnitDependencies.mem_direct_of_strict
  all _ _ h := UnitDependencies.mem_all.1
    (UnitDependencies.mem_all_of_strict (UnitDependencies.mem_all.2 h))
  raw := rawWithin_build T rfl (UnitDependencies.subperm_all_of_strict corpus _ _)
  unresolvedReferences :=
    UnitDependencies.unresolved_firstMatch corpus config.resolution
      config.transitiveDepthLimit.toNat

/-- Two headers of one name, one of which another header includes. -/
def shadowedCorpus : Corpus where
  units := [.ofReferences "a.c" ["b.h", "x.h"], .ofReferences "b.h" ["net/x.h"],
    .ofReferences "net/x.h" [], .ofReferences "q/x.h" [], .ofReferences "y.c" ["x.h"]]
  sound := by decide +kernel

-- What headers lead to is not part of what they lead to otherwise: here it is direct.
open UnitDependencies in
example : (inMode .strict shadowedCorpus .standard 8).transitive.of 0 = .ofList [2] ∧
    (inMode .firstMatch shadowedCorpus .standard 8).direct.of 0 = .ofList [1, 2] ∧
    (inMode .firstMatch shadowedCorpus .standard 8).transitive.of 0 = .empty := by
  decide +kernel

end Analysis

end Layering
