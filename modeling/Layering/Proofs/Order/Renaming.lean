import Layering.Ordered.Set
import Layering.Proofs.Corpus
import Mathlib.Data.List.Nodup
import Mathlib.Logic.Equiv.Basic

/-!
# Renamed units

Two corpora with the same units in different orders differ by a permutation of
the ids (`Corpus.exists_renames`). What is known of a unit by its path follows
the permutation (`Corpus.Renames.idOf?_eq`), and the units with their ids are the
same up to their order (`Corpus.Renames.perm_indexed`).
-/

namespace Layering

/-! ## Permutations of places -/

/-- A permutation of the places after the first. -/
def shiftPerm (σ : Equiv.Perm Nat) : Equiv.Perm Nat where
  toFun
    | 0 => 0
    | i + 1 => σ i + 1
  invFun
    | 0 => 0
    | i + 1 => σ.symm i + 1
  left_inv
    | 0 => rfl
    | i + 1 => congrArg (· + 1) (σ.symm_apply_apply i)
  right_inv
    | 0 => rfl
    | i + 1 => congrArg (· + 1) (σ.apply_symm_apply i)

variable {α : Type}

/-- The elements of a list that is reordered change places. -/
theorem exists_perm_getElem? {l m : List α} (h : l.Perm m) :
    ∃ σ : Equiv.Perm Nat, ∀ i, m[σ i]? = l[i]? := by
  induction h with
  | nil => exact ⟨.refl _, fun _ => rfl⟩
  | cons a _ ih =>
    obtain ⟨σ, hσ⟩ := ih
    refine ⟨shiftPerm σ, fun i => ?_⟩
    cases i with
    | zero => rfl
    | succ i => exact hσ i
  | swap a b l =>
    refine ⟨.swap 0 1, fun i => ?_⟩
    match i with
    | 0 => rfl
    | 1 => rfl
    | i + 2 => rw [Equiv.swap_apply_of_ne_of_ne (by omega) (by omega)]; rfl
  | trans _ _ ih ih' =>
    obtain ⟨σ, hσ⟩ := ih
    obtain ⟨τ, hτ⟩ := ih'
    exact ⟨σ.trans τ, fun i => (hτ (σ i)).trans (hσ i)⟩

/-- Lists without repetitions are renamed into each other if their elements are. -/
theorem perm_map_of_mem_iff {l m : List α} {σ : Equiv.Perm α} (hl : l.Nodup) (hm : m.Nodup)
    (h : ∀ x, σ x ∈ m ↔ x ∈ l) : (l.map σ).Perm m := by
  refine (List.perm_ext_iff_of_nodup (hl.map σ.injective) hm).2 fun y => ?_
  obtain ⟨x, rfl⟩ := σ.surjective y
  rw [List.mem_map_of_injective σ.injective, h]

theorem OrdSet.perm_map [LT α] [StrictOrder α] {s t : OrdSet α} {σ : Equiv.Perm α}
    (h : ∀ x, σ x ∈ t ↔ x ∈ s) : (s.toList.map σ).Perm t.toList :=
  perm_map_of_mem_iff s.nodup_toList t.nodup_toList h

namespace Corpus

/-! ## Renamings of units -/

/-- A permutation of ids that leads from the units of one corpus to those of
another. -/
def Renames (σ : Equiv.Perm UnitId) (c d : Corpus) : Prop := ∀ i, d.units[σ i]? = c.units[i]?

theorem exists_renames {c d : Corpus} (h : c.units.Perm d.units) :
    ∃ σ : Equiv.Perm UnitId, Renames σ c d := exists_perm_getElem? h

namespace Renames

variable {σ : Equiv.Perm UnitId} {c d : Corpus} (h : Renames σ c d)
include h

theorem idOf?_eq (p : String) : d.idOf? p = (c.idOf? p).map σ := by
  refine Option.ext fun j => ?_
  obtain ⟨i, rfl⟩ := σ.surjective j
  rw [idOf?_eq_some_iff, h i, ← idOf?_eq_some_iff, Option.map_eq_some_iff]
  constructor
  · exact fun hi => ⟨i, hi, rfl⟩
  · rintro ⟨k, hk, he⟩
    rwa [← σ.injective he]

theorem perm_indexed : (c.indexed.map fun u => (σ u.1, u.2)).Perm d.indexed := by
  have hinj : Function.Injective fun u : UnitId × SourceUnit => (σ u.1, u.2) := by
    rintro ⟨i, u⟩ ⟨j, v⟩ he
    obtain ⟨hi, hu⟩ := Prod.mk.inj he
    exact Prod.ext (σ.injective hi) hu
  refine (List.perm_ext_iff_of_nodup (c.nodup_indexed.map hinj) d.nodup_indexed).2 ?_
  rintro ⟨j, u⟩
  obtain ⟨i, rfl⟩ := σ.surjective j
  rw [List.mem_map_of_injective (a := (i, u)) hinj, mem_indexed, mem_indexed, h i]

theorem perm_units : c.units.Perm d.units := by
  have hsnd : ∀ e : Corpus, e.indexed.map Prod.snd = e.units := fun e => by
    rw [indexed, List.map_map]
    exact List.zipIdx_map_fst 0 _
  have := h.perm_indexed.map Prod.snd
  rwa [List.map_map, hsnd d, show (Prod.snd ∘ fun u : UnitId × SourceUnit => (σ u.1, u.2)) =
    Prod.snd from rfl, hsnd c] at this

theorem size_eq : d.size = c.size := h.perm_units.length_eq.symm

theorem lt_size_iff (i : UnitId) : σ i < d.size ↔ i < c.size := by
  have hnone : d.units[σ i]? = none ↔ c.units[i]? = none := by rw [h i]
  rw [List.getElem?_eq_none_iff, List.getElem?_eq_none_iff] at hnone
  exact Nat.not_le.symm.trans (hnone.not.trans Nat.not_le)

end Renames

end Corpus

end Layering
