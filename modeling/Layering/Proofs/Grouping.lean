import Layering.Grouping
import Layering.Proofs.Collect
import Mathlib.Algebra.GroupWithZero.Nat
import Mathlib.Data.List.Nodup

/-!
# Group ids

The groups of a corpus are numbered from 0 in their order
(`Grouping.map_id_ofCorpus`), so no two have the same id, and the group of a unit
is one of them (`Grouping.groupOf_mem`).
-/

namespace Layering

variable {corpus : Corpus} {classifier : Classifier} {config : ResolutionConfig}
  {keys : List Classification}

/-- A group with units added holds their paths too, and its totals grow by theirs. -/
theorem Group.foldl_add_eq (us : List SourceUnit) (g : Group) : us.foldl add g =
    { g with
      units := (us.map SourceUnit.path).foldl (fun s p => s.insert p) g.units
      symbolCount := g.symbolCount + (us.map fun u => u.symbols.length).sum
      privateSymbolCount :=
        g.privateSymbolCount + (us.map fun u => (u.symbols.filter (·.isPrivate)).length).sum
      externallyCalled := g.externallyCalled || us.any fun u => u.externallyCalled } := by
  induction us generalizing g with
  | nil => simp
  | cons u us ih => simp [ih, add, Nat.add_assoc, Bool.or_assoc]

theorem Group.id_foldl_add (us : List SourceUnit) (g : Group) : (us.foldl Group.add g).id = g.id := by
  rw [foldl_add_eq]

/-! ## Classifications -/

theorem length_pair (u : UnitId × SourceUnit) :
    (pair corpus config keys u).length = keys.length := by
  unfold pair
  split
  · exact List.length_set
  · rfl

theorem length_foldl_pair (us : List (UnitId × SourceUnit)) :
    (us.foldl (pair corpus config) keys).length = keys.length := by
  induction us generalizing keys with
  | nil => rfl
  | cons u us ih => rw [List.foldl_cons, ih, length_pair]

/-- Each unit has one classification. -/
theorem length_classifications :
    (classifications corpus classifier config).length = corpus.units.length := by
  unfold classifications
  split
  · rw [length_foldl_pair, List.length_map]
  · exact List.length_map _

namespace Grouping

/-! ## Members -/

theorem members_eq_collect (corpus : Corpus) (keys : List Classification) :
    members corpus keys = OrdMap.collect (keys.zip corpus.units) := rfl

/-- The classifications that have members. -/
theorem mem_keys_members {k : Classification} (h : keys.length = corpus.units.length) :
    k ∈ (members corpus keys).keys ↔ k ∈ keys := by
  rw [members_eq_collect, OrdMap.mem_keys_collect, List.map_fst_zip (Nat.le_of_eq h)]

theorem length_groups : (ofCorpus corpus classifier config).groups.length =
    (members corpus (classifications corpus classifier config)).keys.toList.length := by
  simp [ofCorpus, OrdMap.keys]

/-! ## Ids -/

/-- The ids of the groups are their places. -/
theorem map_id_ofCorpus : (ofCorpus corpus classifier config).groups.map Group.id =
    List.range (ofCorpus corpus classifier config).groups.length := by
  unfold ofCorpus
  rw [List.map_map, List.length_map, List.length_zipIdx, List.range_eq_range']
  refine Eq.trans ?_ (List.zipIdx_map_snd 0 _)
  refine List.map_congr_left fun e _ => ?_
  exact Group.id_foldl_add ..

theorem nodup_map_id : ((ofCorpus corpus classifier config).groups.map Group.id).Nodup := by
  rw [map_id_ofCorpus]
  exact List.nodup_range

/-- The group of a unit is one of the groups. -/
theorem groupOf_mem (h : corpus.units ≠ []) (u : UnitId) :
    (ofCorpus corpus classifier config).groupOf u ∈
      (ofCorpus corpus classifier config).groups.map Group.id := by
  rw [map_id_ofCorpus, List.mem_range, length_groups]
  have hlt : ∀ k ∈ classifications corpus classifier config,
      (members corpus (classifications corpus classifier config)).keys.toList.idxOf k <
        (members corpus (classifications corpus classifier config)).keys.toList.length := by
    intro k hk
    rw [List.idxOf_lt_length_iff]
    exact (mem_keys_members length_classifications).2 hk
  by_cases hu : u < (classifications corpus classifier config).length
  · have := hlt _ (List.getElem_mem hu)
    simpa [groupOf, ofCorpus, hu] using this
  · -- A unit that the corpus does not have counts as one of the first group.
    have hne : classifications corpus classifier config ≠ [] := by
      intro e
      apply h
      rw [← List.length_eq_zero_iff, ← length_classifications, e, List.length_nil]
    have := Nat.zero_lt_of_lt (hlt _ (List.head_mem hne))
    simpa [groupOf, ofCorpus, hu] using this

end Grouping

end Layering
