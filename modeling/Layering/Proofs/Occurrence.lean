import Layering.Proofs.Lookup
import Mathlib.Data.List.Forall2

/-!
# References of units

Every reference in the text of a unit leaves a trace
(`UnitDependencies.accountsFor_ofCorpus`). It means the unit itself, or it means
another one, which then is a direct dependency, or there is an entry for it among the
references that mean none. These entries stand in the order of the references, one for
each (`UnitDependencies.reports_unresolved`). A dependency is either direct or reached
through headers.
-/

namespace Layering

/-- The references of all units, each with its unit. -/
def Corpus.references (c : Corpus) : List (SourceUnit × String) :=
  c.units.flatMap fun u => u.references.map fun token => (u, token)

/-- A reference means a unit. -/
def Resolution.isResolved : Resolution → Bool
  | resolved _ => true
  | unresolved => false
  | ambiguous _ => false

/-- A path is that of the unit with an id. -/
def Corpus.PathOf (c : Corpus) (i : UnitId) (path : String) : Prop :=
  ∃ u, c.units[i]? = some u ∧ u.path = path

/-- The entry for a reference that means no unit. -/
inductive Resolver.Reports (r : Resolver) (u : SourceUnit) (token : String) :
    UnresolvedReference → Prop
  | notFound (h : r.resolve token = .unresolved) : Reports r u token ⟨u.path, token, .notFound, []⟩
  /-- Each unit that could be meant is a candidate, by its path. -/
  | ambiguous {ids : List UnitId} {candidates : List String} (h : r.resolve token = .ambiguous ids)
    (paths : List.Forall₂ r.corpus.PathOf ids candidates) :
    Reports r u token ⟨u.path, token, .ambiguous, candidates⟩

/-- Every id of a unit is listed with its path. -/
theorem Corpus.forall₂_pathOf {c : Corpus} {ids : List UnitId} (h : ∀ i ∈ ids, i < c.size) :
    List.Forall₂ c.PathOf ids (ids.filterMap fun i => (c.unit? i).map SourceUnit.path) := by
  induction ids with
  | nil => exact .nil
  | cons i ids ih =>
    obtain ⟨u, hu⟩ : ∃ u, c.units[i]? = some u :=
      ⟨_, List.getElem?_eq_getElem (h i (List.mem_cons_self ..))⟩
    have hpath : (c.unit? i).map SourceUnit.path = some u.path := by
      rw [Corpus.unit?, hu, Option.map_some]
    rw [List.filterMap_cons, hpath]
    exact .cons ⟨u, hu, rfl⟩ (ih fun j hj => h j (List.mem_cons_of_mem _ hj))

namespace UnitDependencies

variable {c : Corpus} {resolving config : ResolutionConfig} {limit : Nat} {i x : UnitId}

/-! ## References that mean none -/

/-- The entries of one unit stand for its references that mean none. -/
theorem reports_unresolvedOf (c : Corpus) (resolving : ResolutionConfig) (u : SourceUnit) :
    List.Forall₂ (fun o => (Resolver.ofCorpus c resolving).Reports o.1 o.2)
      ((u.references.map fun token => (u, token)).filter fun o =>
        !((Resolver.ofCorpus c resolving).resolve o.2).isResolved)
      (unresolvedOf (.ofCorpus c resolving) u) := by
  rw [unresolvedOf]
  induction u.references with
  | nil => exact .nil
  | cons token tokens ih =>
    rw [List.map_cons]
    cases h : (Resolver.ofCorpus c resolving).resolve token with
    | resolved id =>
      rw [List.filter_cons_of_neg (by simp [h, Resolution.isResolved]),
        List.filterMap_cons_none (by rw [h])]
      exact ih
    | unresolved =>
      rw [List.filter_cons_of_pos (by simp [h, Resolution.isResolved]),
        List.filterMap_cons_some (by rw [h])]
      exact .cons (.notFound h) ih
    | ambiguous ids =>
      have hids : ∀ i ∈ ids, i < c.size := fun i hi =>
        Resolver.lt_size_of_mem_ids (h ▸ hi : i ∈ ((Resolver.ofCorpus c resolving).resolve token).ids)
      rw [List.filter_cons_of_pos (by simp [h, Resolution.isResolved]),
        List.filterMap_cons_some (by rw [h])]
      exact .cons (.ambiguous h (Corpus.forall₂_pathOf hids)) ih

/-- So do the entries of all units. -/
theorem reports_unresolved (c : Corpus) (resolving config : ResolutionConfig) (limit : Nat) :
    List.Forall₂ (fun o => (Resolver.ofCorpus c resolving).Reports o.1 o.2)
      (c.references.filter fun o => !((Resolver.ofCorpus c resolving).resolve o.2).isResolved)
      (ofCorpus (.ofCorpus c resolving) config limit).unresolved := by
  have hunresolved : (ofCorpus (.ofCorpus c resolving) config limit).unresolved =
      c.units.flatMap (unresolvedOf (.ofCorpus c resolving)) := rfl
  rw [hunresolved, Corpus.references, List.filter_flatMap]
  induction c.units with
  | nil => exact .nil
  | cons u us ih =>
    rw [List.flatMap_cons, List.flatMap_cons]
    exact List.rel_append (reports_unresolvedOf c resolving u) ih

/-! ## All references -/

/-- Dependencies in which every reference of a corpus is accounted for. -/
structure AccountsFor (d : UnitDependencies) (r : Resolver) : Prop where
  /-- A unit depends directly on the other units that its references mean. -/
  direct : ∀ i x, x ∈ d.direct.of i ↔ ∃ u, r.corpus.units[i]? = some u ∧ x ≠ i ∧
    ∃ token ∈ u.references, r.resolve token = .resolved x
  /-- In the order of the references there is one entry for each that means no unit. -/
  unresolved : List.Forall₂ (fun o => r.Reports o.1 o.2)
    (r.corpus.references.filter fun o => !(r.resolve o.2).isResolved) d.unresolved
  total : r.corpus.references.length =
    (r.corpus.references.countP fun o => (r.resolve o.2).isResolved) + d.unresolved.length
  not_self : ∀ i, i ∉ d.direct.of i ∧ i ∉ d.transitive.of i
  disjoint : ∀ i, ∀ x ∈ d.direct.of i, x ∉ d.transitive.of i
  /-- All dependencies of a unit are the direct and the further ones, each once. -/
  nodup_all : ∀ i, (d.all i).Nodup
  mem_all : ∀ i x, x ∈ d.all i ↔ x ∈ d.direct.of i ∨ x ∈ d.transitive.of i

/-- No reference of a corpus is lost, whichever configuration its resolver has and
whichever units are taken for headers. -/
theorem accountsFor_ofCorpus (c : Corpus) (resolving config : ResolutionConfig) (limit : Nat) :
    (ofCorpus (.ofCorpus c resolving) config limit).AccountsFor (.ofCorpus c resolving) where
  direct _ _ := mem_direct_of
  unresolved := reports_unresolved c resolving config limit
  total := by
    have hlength := (reports_unresolved c resolving config limit).length_eq
    have hsplit := List.length_eq_countP_add_countP (l := c.references)
      fun o => ((Resolver.ofCorpus c resolving).resolve o.2).isResolved
    simp only [Bool.not_eq_true, Bool.decide_eq_false] at hsplit
    rw [← hlength, ← List.countP_eq_length_filter]
    exact hsplit
  not_self i := by
    refine ⟨fun hi => ?_, fun hi => (isNew_of_mem_transitive_of hi).1 rfl⟩
    obtain ⟨u, -, hne, -⟩ := mem_direct_of.1 hi
    exact hne rfl
  disjoint _ _ hd ht := (isNew_of_mem_transitive_of ht).2 hd
  nodup_all := UnitDependencies.nodup_all _ config limit
  mem_all _ _ := UnitDependencies.mem_all

end UnitDependencies

end Layering
