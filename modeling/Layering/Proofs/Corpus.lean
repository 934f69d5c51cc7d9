import Layering.Corpus
import Mathlib.Data.List.Nodup

/-!
# Units of corpora

No two units of a corpus have the same path (`Corpus.nodup_map_path`), so a path
is that of at most one unit (`Corpus.idOf?_eq_some_iff`). Sound units with distinct
paths can be sorted (`Corpus.exists_sorted`), in whatever order they come
(`Corpus.sorted_perm`).
-/

namespace Layering

/-- A unit names a file and has no nameless symbol. -/
structure SourceUnit.IsSound (u : SourceUnit) : Prop where
  path : u.trimmedPath ≠ []
  basename : Path.lastComponent u.trimmedPath ≠ []
  symbols : ∀ s ∈ u.symbols, s.name ≠ ""

/-- A unit is kept out only by what is wrong with itself and by a unit with its path. -/
theorem SourceUnit.defect?_eq_none_iff {before : List SourceUnit} {u : SourceUnit} :
    u.defect? before = none ↔ u.IsSound ∧ ∀ b ∈ before, b.path ≠ u.path := by
  have hite : ∀ (b : Bool) (e : CorpusError) (o : Option CorpusError),
      (if b then some e else o) = none ↔ b = false ∧ o = none := fun b e o => by cases b <;> simp
  have hsound : u.IsSound ↔ u.trimmedPath ≠ [] ∧ Path.lastComponent u.trimmedPath ≠ [] ∧
      ∀ s ∈ u.symbols, s.name ≠ "" :=
    ⟨fun h => ⟨h.path, h.basename, h.symbols⟩, fun h => ⟨h.1, h.2.1, h.2.2⟩⟩
  rw [defect?, hite, hite, hite, hite, hsound]
  simp [and_assoc]

/-- Units have no defect if each is sound and their paths are distinct. -/
theorem firstDefect?_eq_none_iff (before : List SourceUnit) {us : List SourceUnit}
    (hb : (before.map SourceUnit.path).Nodup) : firstDefect? before us = none ↔
      (∀ u ∈ us, u.IsSound) ∧ ((before ++ us).map SourceUnit.path).Nodup := by
  induction us generalizing before with
  | nil => simpa [firstDefect?] using hb
  | cons u us ih =>
    have hdistinct : (∀ b ∈ before, b.path ≠ u.path) ↔
        ((before ++ [u]).map SourceUnit.path).Nodup := by
      rw [List.map_append, List.nodup_append]
      simp [hb]
    have hdefect := @SourceUnit.defect?_eq_none_iff before u
    rw [hdistinct] at hdefect
    rw [firstDefect?, List.append_cons before u us, List.forall_mem_cons]
    split
    · next e he =>
      rw [he] at hdefect
      refine iff_of_false nofun fun h => ?_
      have hnodup : ((before ++ [u]).map SourceUnit.path).Nodup :=
        h.2.sublist (.map _ (List.sublist_append_left _ us))
      cases hdefect.2 ⟨h.1.1, hnodup⟩
    · next hu =>
      obtain ⟨hsound, hnodup⟩ := hdefect.1 hu
      rw [ih _ hnodup]
      simp only [hsound, true_and]

namespace Corpus

variable {c : Corpus} {i : UnitId} {u : SourceUnit} {p : String}

/-- The paths of the units are distinct. -/
theorem nodup_map_path (c : Corpus) : (c.units.map SourceUnit.path).Nodup :=
  ((firstDefect?_eq_none_iff [] List.nodup_nil).1 c.sound).2

/-- A path is known by the unit it belongs to. -/
theorem idOf?_eq_some_iff : c.idOf? p = some i ↔ ∃ u, c.units[i]? = some u ∧ u.path = p := by
  rw [idOf?, List.findIdx?_eq_some_iff_getElem]
  constructor
  · rintro ⟨hi, hp, -⟩
    exact ⟨c.units[i], List.getElem?_eq_getElem hi, beq_iff_eq.1 hp⟩
  · rintro ⟨u, hu, rfl⟩
    obtain ⟨hi, rfl⟩ := List.getElem?_eq_some_iff.1 hu
    refine ⟨hi, beq_iff_eq.2 rfl, fun j hji hj => ?_⟩
    have hlt : i < (c.units.map SourceUnit.path).length := by rwa [List.length_map]
    have hlt' : j < (c.units.map SourceUnit.path).length := Nat.lt_trans hji hlt
    have hpath : (c.units.map SourceUnit.path)[j] = (c.units.map SourceUnit.path)[i] := by
      rw [List.getElem_map, List.getElem_map, beq_iff_eq.1 hj]
    exact Nat.ne_of_lt hji (c.nodup_map_path.getElem_inj_iff.1 hpath)

/-! ## Units with their ids -/

theorem mem_indexed : (i, u) ∈ c.indexed ↔ c.units[i]? = some u := by
  rw [indexed, List.mem_map]
  constructor
  · rintro ⟨q, hq, he⟩
    cases he
    exact List.mem_zipIdx_iff_getElem?.1 hq
  · intro h
    exact ⟨(u, i), List.mem_zipIdx_iff_getElem?.2 h, rfl⟩

theorem getElem?_indexed (c : Corpus) (i : UnitId) :
    c.indexed[i]? = c.units[i]?.map fun u => (i, u) := by
  rw [indexed, List.getElem?_map, List.getElem?_zipIdx, Option.map_map, Nat.zero_add]
  rfl

theorem map_fst_indexed (c : Corpus) : c.indexed.map Prod.fst = List.range c.units.length := by
  rw [indexed, List.map_map, List.range_eq_range']
  exact List.zipIdx_map_snd 0 _

theorem map_snd_indexed (c : Corpus) : c.indexed.map Prod.snd = c.units := by
  rw [indexed, List.map_map]
  exact List.zipIdx_map_fst 0 _

/-- The symbols are those of the units in order. -/
theorem length_symbols (c : Corpus) :
    c.symbols.length = (c.units.flatMap SourceUnit.symbols).length := by
  conv => rhs; rw [← c.map_snd_indexed, List.flatMap_map]
  rw [symbols, List.length_flatMap, List.length_flatMap]
  simp only [List.length_map]

/-- The ids stand in ascending order. -/
theorem ascending_indexed (c : Corpus) : c.indexed.Pairwise fun u v => u.1 < v.1 :=
  List.pairwise_map.1 (c.map_fst_indexed ▸ List.pairwise_lt_range)

theorem nodup_indexed (c : Corpus) : c.indexed.Nodup :=
  .of_map Prod.fst (c.map_fst_indexed ▸ List.nodup_range)

/-! ## Sorted corpora -/

variable {us vs : List SourceUnit}

/-- Sound units with distinct paths can be sorted into a corpus. -/
theorem exists_sorted (hsound : ∀ u ∈ us, u.IsSound) (hnodup : (us.map SourceUnit.path).Nodup) :
    ∃ c, sorted us = .ok c := by
  have hperm := us.mergeSort_perm byPath
  have hdefect : firstDefect? [] (us.mergeSort byPath) = none :=
    (firstDefect?_eq_none_iff [] List.nodup_nil).2
      ⟨fun u hu => hsound u (hperm.mem_iff.1 hu), (hperm.map _).nodup_iff.2 hnodup⟩
  exact ⟨⟨_, hdefect⟩, ofUnits_eq_ok_iff.2 rfl⟩

theorem mem_units_sorted (h : sorted us = .ok c) : u ∈ c.units ↔ u ∈ us := by
  rw [ofUnits_eq_ok_iff.1 h, (us.mergeSort_perm byPath).mem_iff]

theorem pairwise_mergeSort_byPath (us : List SourceUnit) :
    (us.mergeSort byPath).Pairwise fun u v => u.path ≤ v.path := by
  have htrans : ∀ a b c : SourceUnit, byPath a b → byPath b c → byPath a c := fun a b c hab hbc =>
    decide_eq_true (String.le_trans (of_decide_eq_true hab) (of_decide_eq_true hbc))
  have htotal : ∀ a b : SourceUnit, (byPath a b || byPath b a) = true := fun a b => by
    simpa [byPath] using String.le_total a.path b.path
  exact (List.pairwise_mergeSort htrans htotal us).imp of_decide_eq_true

/-- The paths of a sorted corpus ascend. -/
theorem ascending_units_sorted (h : sorted us = .ok c) :
    c.units.Pairwise fun u v => u.path < v.path := by
  have hle : c.units.Pairwise fun u v => u.path ≤ v.path :=
    ofUnits_eq_ok_iff.1 h ▸ pairwise_mergeSort_byPath us
  have hne : c.units.Pairwise fun u v => u.path ≠ v.path := List.pairwise_map.1 c.nodup_map_path
  refine hle.imp₂ (fun u v huv hne => ?_) hne
  exact String.not_le.1 fun hvu => hne (String.le_antisymm huv hvu)

/-- Units with distinct paths are sorted into the same corpus in whatever order they come. -/
theorem sorted_perm (h : us.Perm vs) (hnodup : (us.map SourceUnit.path).Nodup) :
    sorted us = sorted vs := by
  have hperm : (us.mergeSort byPath).Perm (vs.mergeSort byPath) :=
    (us.mergeSort_perm _).trans (h.trans (vs.mergeSort_perm _).symm)
  have heq : us.mergeSort byPath = vs.mergeSort byPath := by
    refine hperm.eq_of_pairwise (fun u v hu hv huv hvu => ?_) (pairwise_mergeSort_byPath us)
      (pairwise_mergeSort_byPath vs)
    have hu := (us.mergeSort_perm _).mem_iff.1 hu
    have hv := h.mem_iff.2 ((vs.mergeSort_perm _).mem_iff.1 hv)
    exact List.inj_on_of_nodup_map hnodup hu hv (String.le_antisymm huv hvu)
  rw [sorted, sorted, heq]

end Corpus

end Layering
