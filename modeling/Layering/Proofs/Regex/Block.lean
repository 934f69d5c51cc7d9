import Layering.Proofs.Regex.Leads
import Mathlib.Order.Nat

/-!
# Blocks of programs

The instructions between two addresses match what a relation relates if they lead from their start
to what follows them for related cursors, and if no thread gets out of them in another way
(`Regex.Block`). Blocks are put together in the ways in which expressions are compiled.
-/

namespace Layering.Regex

/-- From `start` on, the instructions from `lo` up to `hi` match what `R` relates, and `next`
follows. -/
structure Block (text : Array Char) (q : Program) (lo hi : Nat) (R : Cursor → Cursor → Prop)
    (start next : Nat) : Prop where
  goes : ∀ {c d : Cursor}, R c d → ∃ n, Times (Next q text) n (c.at start) (d.at next)
  /-- A thread that gets out has come through `next` after what `R` relates. -/
  leaves : ∀ {n : Nat} {c : Cursor} {u : Thread}, Times (Next q text) n (c.at start) u →
    ¬ (lo ≤ u.address ∧ u.address < hi) →
      ∃ d m, m ≤ n ∧ R c d ∧ Times (Next q text) m (d.at next) u

namespace Block

variable {text : Array Char} {q : Program} {lo lo' hi hi' start mid next x y a : Nat}
  {greedy : Bool} {R S : Cursor → Cursor → Prop}

theorem congr (h : ∀ c d, R c d ↔ S c d) (hb : Block text q lo hi R start next) :
    Block text q lo hi S start next := by
  obtain rfl : R = S := funext fun c => funext fun d => propext (h c d)
  exact hb

/-- Nothing is matched by no instructions. -/
theorem empty : Block text q lo hi (fun c d => d = c) next next where
  goes h := ⟨0, by rw [h]; rfl⟩
  leaves h _ := ⟨_, _, Nat.le_refl _, rfl, h⟩

theorem mono (hb : Block text q lo hi R start next) (hlo : lo' ≤ lo) (hhi : hi ≤ hi') :
    Block text q lo' hi' R start next where
  goes := hb.goes
  leaves h hu := hb.leaves h fun hin => hu ⟨hlo.trans hin.1, Nat.lt_of_lt_of_le hin.2 hhi⟩

theorem comp (hb : Block text q lo hi R start mid) (hb' : Block text q lo hi S mid next) :
    Block text q lo hi (fun c d => ∃ f, R c f ∧ S f d) start next where
  goes := by
    rintro c d ⟨f, hR, hS⟩
    obtain ⟨m, hm⟩ := hb.goes hR
    obtain ⟨n, hn⟩ := hb'.goes hS
    exact ⟨m + n, hm.trans hn⟩
  leaves h hu := by
    obtain ⟨f, m, hm, hR, hf⟩ := hb.leaves h hu
    obtain ⟨d, k, hk, hS, hd⟩ := hb'.leaves hf hu
    exact ⟨d, k, hk.trans hm, ⟨f, hR, hS⟩, hd⟩

/-- One instruction that has one successor at most. -/
theorem one (h : ∀ {c : Cursor} {u : Thread}, Next q text (c.at a) u ↔ ∃ d, R c d ∧ u = d.at next)
    (hlo : lo ≤ a) (hhi : a < hi) : Block text q lo hi R a next where
  goes hR := ⟨1, .one (h.2 ⟨_, hR, rfl⟩)⟩
  leaves := by
    intro n c u hn hu
    cases n with
    | zero =>
      obtain rfl : u = c.at a := hn
      exact absurd ⟨hlo, hhi⟩ hu
    | succ n =>
      obtain ⟨v, hv, hn⟩ := hn
      obtain ⟨d, hR, rfl⟩ := h.1 hv
      exact ⟨d, n, Nat.le_succ n, hR, hn⟩

theorem fork (h : q[a]? = some (forkTo greedy x y)) (hlo : lo ≤ a) (hhi : a < hi)
    (hx : Block text q lo hi R x next) (hy : Block text q lo hi S y next) :
    Block text q lo hi (fun c d => R c d ∨ S c d) a next where
  goes := by
    rintro c d (hR | hS)
    · obtain ⟨n, hn⟩ := hx.goes hR
      exact ⟨n + 1, c.at x, (next_forkTo h).2 (.inl rfl), hn⟩
    · obtain ⟨n, hn⟩ := hy.goes hS
      exact ⟨n + 1, c.at y, (next_forkTo h).2 (.inr rfl), hn⟩
  leaves := by
    intro n c u hn hu
    cases n with
    | zero =>
      obtain rfl : u = c.at a := hn
      exact absurd ⟨hlo, hhi⟩ hu
    | succ n =>
      obtain ⟨v, hv, hn⟩ := hn
      rcases (next_forkTo h).1 hv with rfl | rfl
      · obtain ⟨d, m, hm, hR, hd⟩ := hx.leaves hn hu
        exact ⟨d, m, Nat.le_succ_of_le hm, .inl hR, hd⟩
      · obtain ⟨d, m, hm, hS, hd⟩ := hy.leaves hn hu
        exact ⟨d, m, Nat.le_succ_of_le hm, .inr hS, hd⟩

/-- A fork to a body, which leads back to the fork, and to what follows. -/
theorem loop (h : q[a]? = some (forkTo greedy x next)) (hlo : lo ≤ a) (hhi : a < hi)
    (hx : Block text q lo hi R x a) :
    Block text q lo hi (fun c d => ∃ n, Times R n c d) a next where
  goes := by
    rintro c d ⟨n, hn⟩
    induction n generalizing c with
    | zero =>
      obtain rfl : d = c := hn
      exact ⟨1, .one ((next_forkTo h).2 (.inr rfl))⟩
    | succ n ih =>
      obtain ⟨f, hR, hn⟩ := hn
      obtain ⟨k, hk⟩ := hx.goes hR
      obtain ⟨m, hm⟩ := ih hn
      exact ⟨k + m + 1, c.at x, (next_forkTo h).2 (.inl rfl), hk.trans hm⟩
  leaves := by
    intro n
    -- each turn takes a thread nearer to the end of its run
    induction n using Nat.strong_induction_on with
    | _ n ih =>
    intro c u hn hu
    cases n with
    | zero =>
      obtain rfl : u = c.at a := hn
      exact absurd ⟨hlo, hhi⟩ hu
    | succ n =>
      obtain ⟨v, hv, hn⟩ := hn
      rcases (next_forkTo h).1 hv with rfl | rfl
      · obtain ⟨f, m, hm, hR, hf⟩ := hx.leaves hn hu
        obtain ⟨d, k, hk, ⟨j, hj⟩, hd⟩ := ih m (Nat.lt_succ_of_le hm) hf hu
        exact ⟨d, k, (hk.trans hm).trans (Nat.le_succ n), ⟨j + 1, f, hR, hj⟩, hd⟩
      · exact ⟨c, n, Nat.le_succ n, ⟨0, rfl⟩, hn⟩

end Block

end Layering.Regex
