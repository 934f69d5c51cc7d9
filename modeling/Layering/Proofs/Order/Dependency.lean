import Layering.Proofs.Dependency
import Layering.Proofs.Order.Grouping
import Layering.Proofs.Order.Reference
import Layering.Proofs.Projection
import Mathlib.Data.List.Forall2

/-!
# Dependencies of reordered units

In strict mode the dependencies of a unit follow the renaming of the ids, the
direct ones (`UnitDependencies.renamed_direct`) and those that headers lead to
(`UnitDependencies.renamed_transitive`), so there are as many of each. The
references that mean no unit are the same, but for their order and that of their
candidates (`UnitDependencies.unresolved_of_renames`).
-/

namespace Layering

variable {σ : Equiv.Perm UnitId} {c d : Corpus} {config : ResolutionConfig} {limit : Nat}

/-- Two entries say the same, but for the order of their candidates. -/
structure UnresolvedReference.Same (a b : UnresolvedReference) : Prop where
  unit : a.unit = b.unit
  token : a.token = b.token
  reason : a.reason = b.reason
  candidates : a.candidates.Perm b.candidates

/-- Dependencies follow a renaming of ids. -/
def Dependencies.Renamed (σ : Equiv.Perm UnitId) (a b : Dependencies) : Prop :=
  ∀ i x, σ x ∈ b.of (σ i) ↔ x ∈ a.of i

/-- All dependencies are the same under the other names. -/
theorem Dependencies.Renamed.perm_flatMap {a b : Dependencies} (h : a.Renamed σ b)
    (hlt : ∀ i, σ i < b.length ↔ i < a.length) :
    ((a.flatMap OrdSet.toList).map σ).Perm (b.flatMap OrdSet.toList) := by
  have hrange : ((List.range a.length).map σ).Perm (List.range b.length) :=
    perm_map_of_mem_iff List.nodup_range List.nodup_range fun i => by
      rw [List.mem_range, List.mem_range, hlt]
  rw [flatMap_toList a, flatMap_toList b, List.map_flatMap]
  refine .trans ?_ (hrange.flatMap_right _)
  rw [List.flatMap_map]
  exact List.Perm.flatMap_left _ fun i _ => OrdSet.perm_map (h i)

theorem Dependencies.Renamed.length_flatMap {a b : Dependencies} (h : a.Renamed σ b)
    (hlt : ∀ i, σ i < b.length ↔ i < a.length) :
    (b.flatMap OrdSet.toList).length = (a.flatMap OrdSet.toList).length := by
  rw [← (h.perm_flatMap hlt).length_eq, List.length_map]

namespace Closure

variable {a b : Closure} {n : Nat} {x : UnitId}

/-- What following headers needs to know follows a renaming of ids. -/
structure Renamed (σ : Equiv.Perm UnitId) (a b : Closure) : Prop where
  unit : b.unit = σ a.unit
  direct : a.direct.Renamed σ b.direct
  isHeader : ∀ x, b.isHeader (σ x) = a.isHeader x

namespace Renamed

variable (h : Renamed σ a b)
include h

theorem exists_iff {p q : UnitId → Prop} (hpq : ∀ y, q (σ y) ↔ p y) :
    (∃ y, q y ∧ σ x ∈ b.direct.of y) ↔ ∃ y, p y ∧ x ∈ a.direct.of y := by
  rw [σ.surjective.exists]
  exact exists_congr fun y => and_congr (hpq y) (h.direct y x)

theorem within_iff : b.Within n (σ x) ↔ a.Within n x := by
  induction n generalizing x with
  | zero => rw [Within, Within, h.unit, σ.injective.eq_iff]
  | succ n ih =>
    rw [Within, Within, ih, h.isHeader]
    exact or_congr_right (and_congr_right fun _ => h.exists_iff fun y => ih)

theorem reaches_iff : b.Reaches n (σ x) ↔ a.Reaches n x := by
  have hnew : b.isNew (σ x) ↔ a.isNew x := by
    rw [isNew_iff, isNew_iff, h.unit, σ.injective.ne_iff, h.direct]
  exact and_congr hnew (h.exists_iff fun y => h.within_iff)

end Renamed

end Closure

namespace UnitDependencies

section

variable (h : Corpus.Renames σ c d) (hmode : config.mode = .strict)
include h hmode

theorem resolve_eq_resolved_iff {reference : String} {x : UnitId} :
    (Resolver.ofCorpus d config).resolve reference = .resolved (σ x) ↔
      (Resolver.ofCorpus c config).resolve reference = .resolved x := by
  have hrenamed := Resolver.renamed_resolve h hmode reference
  generalize (Resolver.ofCorpus c config).resolve reference = m at hrenamed ⊢
  generalize (Resolver.ofCorpus d config).resolve reference = m' at hrenamed ⊢
  cases hrenamed with
  | resolved id => rw [Resolution.resolved.injEq, Resolution.resolved.injEq, σ.injective.eq_iff]
  | unresolved => simp
  | ambiguous => simp

theorem renamed_direct (limit : Nat) :
    (ofCorpus (.ofCorpus c config) config limit).direct.Renamed σ
      (ofCorpus (.ofCorpus d config) config limit).direct := by
  intro i x
  rw [mem_direct_of, mem_direct_of]
  simp only [resolve_eq_resolved_iff h hmode, σ.injective.ne_iff]
  exact exists_congr fun u => and_congr_left fun _ => Iff.of_eq (congrArg (· = some u) (h i))

theorem renamed_closure (i : UnitId) : (closure (.ofCorpus c config) config i).Renamed σ
    (closure (.ofCorpus d config) config (σ i)) where
  unit := rfl
  direct := renamed_direct h hmode 0
  isHeader x := by
    rw [isHeader_closure, isHeader_closure]
    exact congrArg (Option.any _) (h x)

theorem renamed_transitive : (ofCorpus (.ofCorpus c config) config limit).transitive.Renamed σ
    (ofCorpus (.ofCorpus d config) config limit).transitive := by
  intro i x
  rw [mem_transitive_of, mem_transitive_of, (renamed_closure h hmode i).reaches_iff]
  exact and_congr_left fun _ => h.lt_size_iff i

theorem directCount_of_renames : (ofCorpus (.ofCorpus d config) config limit).directCount =
    (ofCorpus (.ofCorpus c config) config limit).directCount := by
  refine (renamed_direct h hmode limit).length_flatMap fun i => ?_
  rw [length_direct, length_direct]
  exact h.lt_size_iff i

theorem transitiveCount_of_renames : (ofCorpus (.ofCorpus d config) config limit).transitiveCount =
    (ofCorpus (.ofCorpus c config) config limit).transitiveCount := by
  refine (renamed_transitive h hmode).length_flatMap fun i => ?_
  rw [length_transitive, length_transitive]
  exact h.lt_size_iff i

/-- All dependencies of a unit are the same under the other names. -/
theorem perm_all (i : UnitId) : (((ofCorpus (.ofCorpus c config) config limit).all i).map σ).Perm
    ((ofCorpus (.ofCorpus d config) config limit).all (σ i)) := by
  rw [all, all, List.map_append]
  exact (OrdSet.perm_map (renamed_direct h hmode limit i)).append
    (OrdSet.perm_map (renamed_transitive h hmode i))

/-- The edges behind the dependencies are the same if units keep their groups. -/
theorem perm_groupEdges {g g' : Grouping} (hg : ∀ i, g'.groupOf (σ i) = g.groupOf i) :
    ((ofCorpus (.ofCorpus c config) config limit).groupEdges c g).Perm
      ((ofCorpus (.ofCorpus d config) config limit).groupEdges d g') := by
  have hunit : ∀ u : UnitId × SourceUnit,
      (((ofCorpus (.ofCorpus c config) config limit).all u.1).map fun t =>
        (⟨g.groupOf u.1, g.groupOf t⟩ : Edge)).Perm
      (((ofCorpus (.ofCorpus d config) config limit).all (σ u.1)).map fun t =>
        (⟨g'.groupOf (σ u.1), g'.groupOf t⟩ : Edge)) := fun u => by
    refine .trans (.of_eq ?_) ((perm_all h hmode u.1).map _)
    rw [List.map_map]
    exact List.map_congr_left fun t _ => by rw [hg, Function.comp_apply, hg]
  refine .trans ?_ (h.perm_indexed.flatMap_right _)
  rw [List.flatMap_map]
  exact List.Perm.flatMap_left _ fun u _ => hunit u

/-- The graph of the groups is the same. -/
theorem project_eq_of_renames {classifier : Classifier} (he : Grouping.SourceExtensions config) :
    (ofCorpus (.ofCorpus d config) config limit).project d (.ofCorpus d classifier config) =
      (ofCorpus (.ofCorpus c config) config limit).project c (.ofCorpus c classifier config) := by
  rw [project, project, Grouping.groups_eq_of_renames he h]
  exact (Graph.foldl_addEdge_of_perm (perm_groupEdges h hmode
    (Grouping.groupOf_eq_of_renames he h)) _).symm

/-! ### References that mean no unit -/

/-- The entries of a unit are the same, but for the order of candidates. -/
theorem forall₂_unresolvedOf (u : SourceUnit) : List.Forall₂ UnresolvedReference.Same
    (unresolvedOf (.ofCorpus c config) u) (unresolvedOf (.ofCorpus d config) u) := by
  refine List.rel_filterMap (fun token token' ht => ?_) (List.forall₂_same.2 fun _ _ => rfl)
  obtain rfl : token = token' := ht
  have hrenamed := Resolver.renamed_resolve h hmode token
  generalize (Resolver.ofCorpus c config).resolve token = m at hrenamed ⊢
  generalize (Resolver.ofCorpus d config).resolve token = m' at hrenamed ⊢
  cases hrenamed with
  | resolved id => exact .none
  | unresolved => exact .some ⟨rfl, rfl, rfl, .nil⟩
  | @ambiguous ids ids' hperm =>
    have hpath : ∀ i, (d.unit? (σ i)).map SourceUnit.path = (c.unit? i).map SourceUnit.path :=
      fun i => congrArg (Option.map _) (h i)
    refine .some ⟨rfl, rfl, rfl, .trans (.of_eq ?_) (hperm.filterMap _)⟩
    rw [List.filterMap_map]
    exact List.filterMap_congr fun i _ => (hpath i).symm

/-- The same references mean no unit, and for the same reason. -/
theorem unresolved_of_renames : ∃ l, List.Forall₂ UnresolvedReference.Same
    (ofCorpus (.ofCorpus c config) config limit).unresolved l ∧
      l.Perm (ofCorpus (.ofCorpus d config) config limit).unresolved := by
  refine ⟨c.units.flatMap (unresolvedOf (.ofCorpus d config)), ?_, h.perm_units.flatMap_right _⟩
  refine List.rel_flatMap (List.forall₂_same.2 fun _ _ => rfl) fun u v huv => ?_
  obtain rfl : u = v := huv
  exact forall₂_unresolvedOf h hmode u

end

end UnitDependencies

end Layering
