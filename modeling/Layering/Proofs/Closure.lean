import Layering.Dependency
import Mathlib.Data.List.Basic

/-!
# Closures

What a unit depends on beyond its direct dependencies: what is a dependency of
some unit that at most `limit` headers in a row lead to
(`Closure.mem_transitive`). The search goes level by level and visits no header
twice, so it also ends where headers include each other.
-/

namespace Layering.Closure

variable {c : Closure} {n limit : Nat} {x : UnitId} {us visited level : List UnitId}
  {reached : OrdSet UnitId}

/-- At most `n` headers in a row lead from the unit to another, the last of them
being that one. -/
def Within (c : Closure) : Nat → UnitId → Prop
  | 0, x => x = c.unit
  | n + 1, x => c.Within n x ∨ (c.isHeader x ∧ ∃ h, c.Within n h ∧ x ∈ c.direct.of h)

/-- What the units that `n` headers lead to depend on, if it is new. -/
def Reaches (c : Closure) (n : Nat) (x : UnitId) : Prop :=
  c.isNew x ∧ ∃ h, c.Within n h ∧ x ∈ c.direct.of h

theorem Within.succ (h : c.Within n x) : c.Within (n + 1) x := .inl h

theorem isNew_iff : c.isNew x ↔ x ≠ c.unit ∧ x ∉ c.direct.of c.unit := by
  simp [isNew]

theorem mem_unvisited : x ∈ c.unvisited visited us ↔ x ∈ us ∧ c.isHeader x ∧ x ∉ visited := by
  simp [unvisited]

theorem not_reaches_zero (c : Closure) (x : UnitId) : ¬ c.Reaches 0 x := by
  rintro ⟨hnew, h, rfl, hx⟩
  exact (isNew_iff.1 hnew).2 hx

/-- When no header is new, no further ones are within reach. -/
theorem within_of_stable (h : ∀ x, c.Within (n + 1) x → c.Within n x) (m : Nat) :
    ∀ x, c.Within (n + m) x → c.Within n x := by
  induction m with
  | zero => exact fun _ hx => hx
  | succ m ih =>
    rintro x (hx | ⟨hheader, y, hy, hxy⟩)
    · exact ih x hx
    · exact h x (.inr ⟨hheader, y, ih y hy, hxy⟩)

theorem within_add (h : c.Within n x) (m : Nat) : c.Within (n + m) x := by
  induction m with
  | zero => exact h
  | succ m ih => exact ih.succ

/-- A search that has come to the headers of level `n + 1`. -/
structure Following (c : Closure) (n : Nat) (visited level : List UnitId)
    (reached : OrdSet UnitId) : Prop where
  visited_iff : ∀ x, x ∈ visited ↔ c.Within (n + 1) x
  level_iff : ∀ x, x ∈ level ↔ c.Within (n + 1) x ∧ ¬ c.Within n x
  reached_iff : ∀ x, x ∈ reached ↔ c.Reaches n x

namespace Following

theorem initial (c : Closure) :
    Following c 0 (c.unvisited [c.unit] (c.direct.of c.unit).toList ++ [c.unit])
      (c.unvisited [c.unit] (c.direct.of c.unit).toList) .empty := by
  have hlevel : ∀ x, x ∈ c.unvisited [c.unit] (c.direct.of c.unit).toList ↔
      c.Within 1 x ∧ ¬ c.Within 0 x := fun x => by
    rw [mem_unvisited, OrdSet.mem_toList, List.mem_singleton]
    constructor
    · rintro ⟨hx, hheader, hne⟩
      exact ⟨.inr ⟨hheader, c.unit, rfl, hx⟩, hne⟩
    · rintro ⟨h | ⟨hheader, y, rfl, hx⟩, hne⟩
      · exact absurd h hne
      · exact ⟨hx, hheader, hne⟩
  exact {
    visited_iff := fun x => by
      rw [List.mem_append, hlevel, List.mem_singleton]
      by_cases hx : x = c.unit
      · exact iff_of_true (.inr hx) (.inl hx)
      · rw [or_iff_left hx]
        exact and_iff_left hx
    level_iff := hlevel
    reached_iff := fun x => iff_of_false (OrdSet.not_mem_empty x) (c.not_reaches_zero x) }

/-- Taking a level brings the search to the next one. -/
theorem take (h : Following c n visited level reached) :
    Following c (n + 1)
      (c.unvisited visited (level.flatMap fun h => (c.direct.of h).toList) ++ visited)
      (c.unvisited visited (level.flatMap fun h => (c.direct.of h).toList))
      (((level.flatMap fun h => (c.direct.of h).toList).filter c.isNew).foldl
        (fun s u => s.insert u) reached) := by
  have hnext : ∀ x, x ∈ level.flatMap (fun h => (c.direct.of h).toList) ↔
      ∃ y, (c.Within (n + 1) y ∧ ¬ c.Within n y) ∧ x ∈ c.direct.of y := fun x => by
    simp only [List.mem_flatMap, h.level_iff, OrdSet.mem_toList]
  have hlevel : ∀ x, x ∈ c.unvisited visited (level.flatMap fun h => (c.direct.of h).toList) ↔
      c.Within (n + 2) x ∧ ¬ c.Within (n + 1) x := fun x => by
    rw [mem_unvisited, hnext, h.visited_iff]
    constructor
    · rintro ⟨⟨y, ⟨hy, -⟩, hxy⟩, hheader, hn⟩
      exact ⟨.inr ⟨hheader, y, hy, hxy⟩, hn⟩
    · rintro ⟨hx | ⟨hheader, y, hy, hxy⟩, hn⟩
      · exact absurd hx hn
      · exact ⟨⟨y, ⟨hy, fun hy' => hn (.inr ⟨hheader, y, hy', hxy⟩)⟩, hxy⟩, hheader, hn⟩
  exact {
    visited_iff := fun x => by
      rw [List.mem_append, hlevel, h.visited_iff]
      by_cases hx : c.Within (n + 1) x
      · exact iff_of_true (.inr hx) hx.succ
      · rw [or_iff_left hx]
        exact and_iff_left hx
    level_iff := hlevel
    reached_iff := fun x => by
      rw [OrdSet.mem_foldl_insert, List.mem_filter, hnext, h.reached_iff]
      constructor
      · rintro (⟨⟨y, ⟨hy, -⟩, hxy⟩, hnew⟩ | ⟨hnew, y, hy, hxy⟩)
        · exact ⟨hnew, y, hy, hxy⟩
        · exact ⟨hnew, y, hy.succ, hxy⟩
      · rintro ⟨hnew, y, hy, hxy⟩
        by_cases hy' : c.Within n y
        · exact .inr ⟨hnew, y, hy', hxy⟩
        · exact .inl ⟨⟨y, ⟨hy, hy'⟩, hxy⟩, hnew⟩ }

/-- The search reaches what the headers of the levels left to it lead to. -/
theorem mem_follow (h : Following c n visited level reached) (limit : Nat) :
    x ∈ c.follow limit visited level reached ↔ c.Reaches (n + limit) x := by
  induction limit generalizing n visited level reached with
  | zero =>
    cases level with
    | nil => exact h.reached_iff x
    | cons y ys => exact h.reached_iff x
  | succ limit ih =>
    cases level with
    | nil =>
      have hstable : ∀ y, c.Within (n + 1) y → c.Within n y := fun y hy => by
        by_contra hn
        exact List.not_mem_nil ((h.level_iff y).2 ⟨hy, hn⟩)
      rw [follow, h.reached_iff]
      refine and_congr_right fun _ => exists_congr fun y => and_congr_left fun _ => ?_
      exact ⟨fun hy => within_add hy _, within_of_stable hstable _ y⟩
    | cons y ys =>
      rw [follow, ih h.take, Nat.add_right_comm]
      rfl

end Following

/-- The further dependencies of a unit are what units at most `limit` headers away
depend on, apart from the unit and its direct dependencies. -/
theorem mem_transitive : x ∈ c.transitive limit ↔ c.Reaches limit x := by
  rw [transitive, (Following.initial c).mem_follow, Nat.zero_add]

end Layering.Closure
