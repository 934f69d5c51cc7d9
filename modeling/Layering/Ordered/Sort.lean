import Layering.Ordered.Set

/-!
# Sorting by a key

Where keys are not repeated, a list has one order in which they ascend
(`ascending_sortOn`).
-/

namespace Layering

variable {α κ : Type} [LT κ] [DecidableLT κ]

/-- The list in the order of a key. -/
def sortOn (f : α → κ) (l : List α) : List α := l.mergeSort fun a b => !decide (f b < f a)

theorem perm_sortOn (f : α → κ) (l : List α) : (sortOn f l).Perm l := l.mergeSort_perm _

@[simp] theorem mem_sortOn {f : α → κ} {l : List α} {a : α} : a ∈ sortOn f l ↔ a ∈ l :=
  (perm_sortOn f l).mem_iff

variable [StrictOrder κ]

theorem pairwise_sortOn (f : α → κ) (l : List α) :
    (sortOn f l).Pairwise fun a b => ¬ f b < f a := by
  have htrans : ∀ a b c : α, ¬ f b < f a → ¬ f c < f b → ¬ f c < f a := by
    intro a b c hab hbc hca
    rcases StrictOrder.trichotomy (f a) (f b) with h | h | h
    · exact hbc (StrictOrder.trans hca h)
    · exact hbc (h ▸ hca)
    · exact hab h
  have htotal : ∀ a b : α, ¬ f b < f a ∨ ¬ f a < f b := by
    intro a b
    by_cases hba : f b < f a
    · exact .inr fun hab => StrictOrder.irrefl _ (StrictOrder.trans hba hab)
    · exact .inl hba
  refine (List.pairwise_mergeSort (fun a b c => ?_) (fun a b => ?_) l).imp fun h => ?_
  · simpa using htrans a b c
  · simpa using htotal a b
  · simpa using h

/-- Keys that are not repeated ascend. -/
theorem ascending_sortOn {f : α → κ} {l : List α} (h : (l.map f).Nodup) :
    ((sortOn f l).map f).Pairwise (· < ·) := by
  have hnodup : ((sortOn f l).map f).Nodup := ((perm_sortOn f l).map f).nodup_iff.2 h
  rw [List.pairwise_map]
  refine (pairwise_sortOn f l).imp₂ (fun a b hab hne => ?_) (List.pairwise_map.1 hnodup)
  exact (StrictOrder.trichotomy (f a) (f b)).resolve_right
    fun h => h.elim (fun e => hne e) fun h => hab h

end Layering
