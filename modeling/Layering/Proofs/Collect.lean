import Layering.Ordered.Map
import Mathlib.Data.List.Induction
import Mathlib.Data.List.Perm.Basic

/-!
# Collected values

Values put into a map one after the other, each at the end of the list of its key
(`OrdMap.collect`): the list of a key holds its values in their order
(`OrdMap.get?_collect`), and the lists hold all values once
(`OrdMap.perm_flatMap_collect`).

A function of keys and values maps all values of a map in place
(`OrdMap.get?_mapEntries`).
-/

namespace Layering

/-- A search finds the only element that it can. -/
theorem find?_eq_some_of_unique {α : Type} {p : α → Bool} {l : List α} {a : α} (ha : a ∈ l)
    (hp : p a) (h : ∀ b ∈ l, p b → b = a) : l.find? p = some a := by
  cases hf : l.find? p with
  | none => exact absurd hp (List.find?_eq_none.1 hf a ha)
  | some b => rw [h b (List.mem_of_find?_eq_some hf) (List.find?_some hf)]

namespace OrdMap

section MapEntries

variable {κ β γ : Type} [LT κ]

/-- The map with each value replaced by `f` of its key and itself. -/
def mapEntries (f : κ → β → γ) (m : OrdMap κ β) : OrdMap κ γ where
  entries := m.entries.map fun e => (e.1, f e.1 e.2)
  ascending := by
    rw [List.map_map]
    exact m.ascending

theorem keys_mapEntries (f : κ → β → γ) (m : OrdMap κ β) : (m.mapEntries f).keys = m.keys :=
  OrdSet.toList_injective List.map_map

theorem get?_mapEntries [StrictOrder κ] [DecidableEq κ] (f : κ → β → γ) (m : OrdMap κ β) (k : κ) :
    (m.mapEntries f).get? k = (m.get? k).map (f k) := by
  refine Option.ext fun v => ?_
  rw [← mem_entries_iff, Option.map_eq_some_iff, mapEntries, List.mem_map]
  constructor
  · rintro ⟨⟨k', w⟩, hw, he⟩
    obtain ⟨rfl, hv⟩ := Prod.mk.inj he
    exact ⟨w, mem_entries_iff.1 hw, hv⟩
  · rintro ⟨w, hw, rfl⟩
    exact ⟨(k, w), mem_entries_iff.2 hw, rfl⟩

end MapEntries

variable {κ β : Type} [LT κ] [DecidableLT κ] [StrictOrder κ]

/-- The values of each key, in order. -/
def collect (ps : List (κ × β)) : OrdMap κ (List β) :=
  ps.foldl (fun m p => m.alter p.1 fun vs => vs.getD [] ++ [p.2]) .empty

theorem collect_append_singleton (ps : List (κ × β)) (p : κ × β) :
    collect (ps ++ [p]) = (collect ps).alter p.1 fun vs => vs.getD [] ++ [p.2] :=
  List.foldl_append

omit [StrictOrder κ] in
theorem perm_flatMap_alterList (k : κ) (v : β) (l : List (κ × List β)) :
    ((alterList k (fun vs => vs.getD [] ++ [v]) l).flatMap Prod.snd).Perm
      (l.flatMap Prod.snd ++ [v]) := by
  induction l with
  | nil => exact .refl _
  | cons e l ih =>
    rw [alterList]
    split
    · exact (List.perm_append_singleton ..).symm
    · split
      · rw [List.flatMap_cons, List.flatMap_cons, List.append_assoc]
        exact ih.append_left _
      · rw [List.flatMap_cons, List.flatMap_cons, List.append_assoc, List.append_assoc]
        exact List.perm_append_comm.append_left _

/-- All values are collected, each once. -/
theorem perm_flatMap_collect (ps : List (κ × β)) :
    ((collect ps).entries.flatMap Prod.snd).Perm (ps.map Prod.snd) := by
  induction ps using List.reverseRecOn with
  | nil => exact .nil
  | append_singleton ps p ih =>
    rw [collect_append_singleton, List.map_append]
    exact (perm_flatMap_alterList p.1 p.2 _).trans (ih.append_right _)

variable [DecidableEq κ]

/-- A key that occurs has the list of its values. -/
theorem get?_collect (ps : List (κ × β)) (k : κ) : (collect ps).get? k =
    if k ∈ ps.map Prod.fst then some ((ps.filter (·.1 = k)).map Prod.snd) else none := by
  induction ps using List.reverseRecOn with
  | nil => exact get?_empty k
  | append_singleton ps p ih =>
    rw [collect_append_singleton, get?_alter]
    by_cases hk : k = p.1
    · subst hk
      rw [if_pos rfl, ih, List.filter_append, List.map_append]
      by_cases hmem : p.1 ∈ ps.map Prod.fst
      · simp [hmem]
      · have hnil : ps.filter (·.1 = p.1) = [] :=
          List.filter_eq_nil_iff.2 fun q hq h =>
            hmem (List.mem_map.2 ⟨q, hq, of_decide_eq_true h⟩)
        simp [hmem, hnil]
    · have hmem : k ∈ (ps ++ [p]).map Prod.fst ↔ k ∈ ps.map Prod.fst := by
        rw [List.map_append, List.mem_append, List.map_singleton, List.mem_singleton]
        exact or_iff_left hk
      have hfilter : (ps ++ [p]).filter (·.1 = k) = ps.filter (·.1 = k) := by
        simp [List.filter_append, Ne.symm hk]
      rw [if_neg hk, ih, hfilter]
      exact if_congr hmem.symm rfl rfl

/-- An entry holds the values of its key, of which there is one at least. -/
theorem mem_entries_collect {ps : List (κ × β)} {k : κ} {vs : List β} :
    (k, vs) ∈ (collect ps).entries ↔
      k ∈ ps.map Prod.fst ∧ vs = (ps.filter (·.1 = k)).map Prod.snd := by
  rw [mem_entries_iff, get?_collect]
  split
  · next hk => rw [Option.some_inj, and_iff_right hk, eq_comm]
  · next hk => exact iff_of_false (fun h => nomatch h) fun h => hk h.1

theorem mem_keys_collect {ps : List (κ × β)} {k : κ} :
    k ∈ (collect ps).keys ↔ k ∈ ps.map Prod.fst := by
  rw [mem_keys, get?_collect]
  split <;> simp [*]

end OrdMap

end Layering
