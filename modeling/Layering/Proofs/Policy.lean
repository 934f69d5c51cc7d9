import Layering.Config.Basic
import Mathlib.Data.List.Nodup

/-!
# Admission orders and legal dependencies

The effective order of a policy names every layer
(`LayerPolicy.mem_effectiveOrder`), and names each once if the policy is valid
(`LayerPolicy.nodup_effectiveOrder`).

Legal dependencies compose (`LayerPolicy.isLegal_trans`), whatever the ranks and
the layers that may depend on their own rank.
-/

namespace Layering.LayerPolicy

variable {p : LayerPolicy} {a b c : Layer}

/-! ## Orders -/

theorem firstRepeated?_eq_none_iff {before ls : List Layer} :
    firstRepeated? before ls = none ↔ ls.Nodup ∧ ∀ l ∈ ls, l ∉ before := by
  induction ls generalizing before with
  | nil => simp [firstRepeated?]
  | cons l ls ih =>
    rw [firstRepeated?]
    split
    · next h => simp [h]
    · next h =>
      rw [ih, List.nodup_cons]
      constructor
      · rintro ⟨hn, ha⟩
        refine ⟨⟨fun hl => ha l hl (by simp), hn⟩, fun m hm => ?_⟩
        rcases List.mem_cons.1 hm with rfl | hm
        · exact h
        · exact fun hb => ha m hm (List.mem_append_left _ hb)
      · rintro ⟨⟨hl, hn⟩, ha⟩
        refine ⟨hn, fun m hm hb => ?_⟩
        rcases List.mem_append.1 hb with hb | hb
        · exact ha m (List.mem_cons_of_mem _ hm) hb
        · exact hl (List.mem_singleton.1 hb ▸ hm)

/-- The first repeated element of a list stands in what comes before it, which has no
repetition. -/
theorem firstRepeated?_eq_some_iff {before ls : List Layer} {l : Layer} :
    firstRepeated? before ls = some l ↔ ∃ pre post, ls = pre ++ l :: post ∧
      firstRepeated? before pre = none ∧ l ∈ before ++ pre := by
  induction ls generalizing before with
  | nil => simp [firstRepeated?]
  | cons m ls ih =>
    rw [firstRepeated?]
    split
    · next hm =>
      constructor
      · intro hl
        obtain rfl := Option.some_inj.1 hl
        exact ⟨[], ls, rfl, rfl, by simpa using hm⟩
      · rintro ⟨pre, post, hls, hpre, hl⟩
        cases pre with
        | nil =>
          obtain ⟨rfl, -⟩ := List.cons.inj hls
          rfl
        | cons n pre =>
          obtain ⟨rfl, -⟩ := List.cons.inj hls
          rw [firstRepeated?, if_pos hm] at hpre
          cases hpre
    · next hm =>
      rw [ih]
      constructor
      · rintro ⟨pre, post, rfl, hpre, hl⟩
        refine ⟨m :: pre, post, rfl, ?_, by simpa using hl⟩
        rwa [firstRepeated?, if_neg hm]
      · rintro ⟨pre, post, hls, hpre, hl⟩
        cases pre with
        | nil =>
          obtain ⟨rfl, -⟩ := List.cons.inj hls
          exact absurd (by simpa using hl) hm
        | cons n pre =>
          obtain ⟨rfl, rfl⟩ := List.cons.inj hls
          rw [firstRepeated?, if_neg hm] at hpre
          exact ⟨pre, post, rfl, hpre, by simpa using hl⟩

theorem repeatedLayer?_eq_none_iff : p.repeatedLayer? = none ↔ p.admissionOrder.Nodup := by
  rw [repeatedLayer?, firstRepeated?_eq_none_iff]
  simp

theorem repeatedLayer?_eq_some_iff {l : Layer} : p.repeatedLayer? = some l ↔
    ∃ pre post, p.admissionOrder = pre ++ l :: post ∧ pre.Nodup ∧ l ∈ pre := by
  simp only [repeatedLayer?, firstRepeated?_eq_some_iff, firstRepeated?_eq_none_iff,
    List.not_mem_nil, not_false_eq_true, implies_true, and_true, List.nil_append]

/-- A policy is valid if it names no layer twice. -/
theorem validate_eq_ok_iff : p.validate = .ok () ↔ p.admissionOrder.Nodup := by
  rw [← repeatedLayer?_eq_none_iff, validate]
  split <;> simp [*]

theorem mem_effectiveOrder (p : LayerPolicy) (l : Layer) : l ∈ p.effectiveOrder := by
  by_cases h : l ∈ p.admissionOrder
  · exact List.mem_append_left _ h
  · exact List.mem_append_right _ (List.mem_filter.2 ⟨l.mem_all, by simpa using h⟩)

theorem nodup_effectiveOrder (h : p.admissionOrder.Nodup) : p.effectiveOrder.Nodup := by
  refine List.nodup_append.2 ⟨h, Layer.nodup_all.filter _, ?_⟩
  rintro l hl m hm rfl
  have := (List.mem_filter.1 hm).2
  simp [hl] at this

/-! ## Legal dependencies -/

theorem isLegal_iff : p.isLegal a b ↔
    p.rank a < p.rank b ∨ (p.rank a = p.rank b ∧ a ∈ p.sameRankLayers) := by
  simp [isLegal]

theorem rank_le_of_isLegal (h : p.isLegal a b) : p.rank a ≤ p.rank b := by
  rcases isLegal_iff.1 h with h | ⟨h, -⟩
  · exact UInt32.le_of_lt h
  · exact UInt32.le_of_eq h

/-- A layer that may depend on one of no higher rank is tolerated on its own. -/
theorem mem_sameRankLayers_of_isLegal (h : p.isLegal a b) (hr : p.rank b ≤ p.rank a) :
    a ∈ p.sameRankLayers := by
  rcases isLegal_iff.1 h with h | ⟨-, h⟩
  · exact absurd h (UInt32.not_lt.2 hr)
  · exact h

/-- Legal dependencies compose. -/
theorem isLegal_trans (h : p.isLegal a b) (h' : p.isLegal b c) : p.isLegal a c := by
  have hbc := rank_le_of_isLegal h'
  rcases isLegal_iff.1 h with h | ⟨h, ha⟩
  · exact isLegal_iff.2 (.inl (UInt32.lt_of_lt_of_le h hbc))
  · rw [← h] at hbc
    exact isLegal_iff.2 ((UInt32.lt_or_eq_of_le hbc).imp id fun e => ⟨e, ha⟩)

end Layering.LayerPolicy
