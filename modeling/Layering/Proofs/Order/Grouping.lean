import Layering.Proofs.Companion
import Layering.Proofs.Order.Renaming
import Mathlib.Data.List.Perm.Basic

/-!
# Groups of reordered units

The groups do not depend on the order of the units
(`Grouping.groups_eq_of_renames`), and the group of a unit follows the renaming
of the ids (`Grouping.groupOf_eq_of_renames`).
-/

namespace Layering

namespace OrdMap

variable {κ β γ : Type} [LT κ] [StrictOrder κ] [DecidableEq κ]

/-- The map with `f` applied to all values. -/
def mapValues (f : β → γ) (m : OrdMap κ β) : OrdMap κ γ where
  entries := m.entries.map fun e => (e.1, f e.2)
  ascending := by
    rw [List.map_map]
    exact m.ascending

theorem get?_mapValues (f : β → γ) (m : OrdMap κ β) (k : κ) :
    (m.mapValues f).get? k = (m.get? k).map f := get?_mapEntries (fun _ => f) m k

variable [DecidableLT κ]

/-- A function of the values of a key that does not depend on their order does not
depend on the order in which they were collected. -/
theorem mapValues_collect_of_perm {f : List β → γ} (hf : ∀ l m, l.Perm m → f l = f m)
    {ps qs : List (κ × β)} (h : ps.Perm qs) :
    (collect ps).mapValues f = (collect qs).mapValues f := by
  refine ext_get? fun k => ?_
  rw [get?_mapValues, get?_mapValues, get?_collect, get?_collect]
  have hmem : k ∈ ps.map Prod.fst ↔ k ∈ qs.map Prod.fst := (h.map _).mem_iff
  by_cases hk : k ∈ ps.map Prod.fst
  · rw [if_pos hk, if_pos (hmem.1 hk), Option.map_some, Option.map_some,
      hf _ _ ((h.filter _).map _)]
  · rw [if_neg hk, if_neg (mt hmem.2 hk)]

end OrdMap

namespace Group

theorem add_right_comm (g : Group) (u v : SourceUnit) : (g.add u).add v = (g.add v).add u := by
  have hunits : (g.units.insert u.path).insert v.path = (g.units.insert v.path).insert u.path :=
    OrdSet.ext_mem fun x => by
      rw [OrdSet.mem_insert, OrdSet.mem_insert, OrdSet.mem_insert, OrdSet.mem_insert]
      exact or_left_comm
  simp only [add, hunits, Nat.add_right_comm, Bool.or_right_comm]

/-- A group does not depend on the order in which its units were added. -/
theorem foldl_add_of_perm {us vs : List SourceUnit} (h : us.Perm vs) (g : Group) :
    us.foldl add g = vs.foldl add g :=
  haveI : RightCommutative add := ⟨add_right_comm⟩
  h.foldl_eq g

end Group

namespace Grouping

variable {σ : Equiv.Perm UnitId} {c d : Corpus} {classifier : Classifier}
  {config : ResolutionConfig}

theorem companion?_eq_of_renames (h : Corpus.Renames σ c d) (p : String) :
    companion? d config p = (companion? c config p).map σ := by
  unfold companion?
  split
  · simp only [h.idOf?_eq]
    induction config.sourceExtensions with
    | nil => rfl
    | cons e es ih =>
      rw [List.findSome?_cons, List.findSome?_cons, ih]
      cases c.idOf? (Path.withExtension (Path.stem p) e) <;> rfl
  · rfl

theorem keyUnit_eq_of_renames (h : Corpus.Renames σ c d) (u : SourceUnit) :
    keyUnit d config u = keyUnit c config u := by
  have hleader : leader d config u = leader c config u := by
    rw [leader, leader, companion?_eq_of_renames h]
    cases companion? c config u.path with
    | none => rfl
    | some j => rw [Option.map_some, Option.bind_some, Option.bind_some, h j]
  rw [keyUnit, keyUnit, hleader]

/-- A unit has the classification that it has in the other order. -/
theorem getElem?_classifications_of_renames (he : SourceExtensions config)
    (h : Corpus.Renames σ c d) (i : UnitId) :
    (classifications d classifier config)[σ i]? = (classifications c classifier config)[i]? := by
  rw [classifications_eq he, classifications_eq he, List.getElem?_map, List.getElem?_map, h i]
  simp only [keyUnit_eq_of_renames h]

/-- The units with their classifications are the same in the other order. -/
theorem perm_zip_classifications (he : SourceExtensions config) (h : Corpus.Renames σ c d) :
    ((classifications c classifier config).zip c.units).Perm
      ((classifications d classifier config).zip d.units) := by
  have hzip : ∀ (e : Corpus) (f : SourceUnit → Classification),
      (e.units.map f).zip e.units = e.units.map fun u => (f u, u) := fun e f => by
    conv => lhs; rw [← List.map_id e.units, List.map_map, List.zip_map']
    rfl
  rw [classifications_eq he, classifications_eq he, hzip, hzip]
  simp only [keyUnit_eq_of_renames h]
  exact h.perm_units.map _

theorem keys_members_of_renames (he : SourceExtensions config) (h : Corpus.Renames σ c d) :
    (members d (classifications d classifier config)).keys =
      (members c (classifications c classifier config)).keys := by
  refine OrdSet.ext_mem fun k => ?_
  rw [members_eq_collect, members_eq_collect, OrdMap.mem_keys_collect, OrdMap.mem_keys_collect]
  exact ((perm_zip_classifications he h).map Prod.fst).mem_iff.symm

/-- Groups from the members of each classification. -/
theorem groups_ofCorpus (corpus : Corpus) (classifier : Classifier) (config : ResolutionConfig) :
    (ofCorpus corpus classifier config).groups =
      (((members corpus (classifications corpus classifier config)).mapValues fun us id k =>
        us.foldl Group.add (.empty id k)).entries.zipIdx).map fun e => e.1.2 e.2 e.1.1 := by
  rw [OrdMap.mapValues, List.zipIdx_map, List.map_map]
  rfl

/-- The groups do not depend on the order of the units. -/
theorem groups_eq_of_renames (he : SourceExtensions config) (h : Corpus.Renames σ c d) :
    (ofCorpus d classifier config).groups = (ofCorpus c classifier config).groups := by
  rw [groups_ofCorpus, groups_ofCorpus, members_eq_collect, members_eq_collect,
    OrdMap.mapValues_collect_of_perm (fun us vs huv => ?_) (perm_zip_classifications he h)]
  funext id k
  exact Group.foldl_add_of_perm huv _

/-- A unit is in the group that it is in in the other order. -/
theorem groupOf_eq_of_renames (he : SourceExtensions config) (h : Corpus.Renames σ c d)
    (i : UnitId) : (ofCorpus d classifier config).groupOf (σ i) =
      (ofCorpus c classifier config).groupOf i := by
  have hget : (ofCorpus d classifier config).unitGroups[σ i]? =
      (ofCorpus c classifier config).unitGroups[i]? := by
    simp only [ofCorpus, List.getElem?_map, getElem?_classifications_of_renames he h,
      keys_members_of_renames he h]
  rw [groupOf, groupOf, List.getD_eq_getElem?_getD, List.getD_eq_getElem?_getD, hget]

end Grouping

end Layering
