import Layering.Proofs.Regex.Block

/-!
# Compiled expressions

What an expression is compiled to matches what the expression matches
(`Regex.compiles_compile`), and its instructions lead to instructions only.
-/

namespace Layering.Regex

variable {text : Array Char} {p q : Program} {a b next : Nat} {i : Instruction} {n : Nat}
  {greedy : Bool} {c d : Cursor} {R S : Cursor → Cursor → Prop}
  {one other : Nat → Program → Nat × Program}

/-! ## Instructions put in front -/

theorem size_lt_push (p : Program) (i : Instruction) : p.size < (p.push i).size := by
  rw [Array.size_push]
  exact Nat.lt_succ_self _

theorem getElem?_push_of_lt (ha : a < p.size) (i : Instruction) : (p.push i)[a]? = p[a]? := by
  rw [Array.getElem?_push, if_neg (Nat.ne_of_lt ha)]

/-! ## Targets -/

/-- The addresses that an instruction leads to. -/
def Instruction.targets : Instruction → List Nat
  | .accept => []
  | .take _ next => [next]
  | .check _ next => [next]
  | .fork first second => [first, second]
  | .openGroup next => [next]
  | .closeGroup next => [next]

/-- All instructions lead to instructions. -/
def Program.Closed (p : Program) : Prop :=
  ∀ (a : Nat) (i : Instruction), p[a]? = some i → ∀ x ∈ i.targets, x < p.size

theorem Program.Closed.push (hp : p.Closed) (hi : ∀ x ∈ i.targets, x < p.size + 1) :
    Program.Closed (p.push i) := by
  intro a j hj x hx
  rw [Array.getElem?_push] at hj
  rw [Array.size_push]
  split at hj
  · obtain rfl := Option.some.inj hj
    exact hi x hx
  · exact Nat.lt_succ_of_lt (hp a j hj x hx)

theorem Program.Closed.set (hp : p.Closed) (hi : ∀ x ∈ i.targets, x < p.size) (b : Nat) :
    Program.Closed (p.setIfInBounds b i) := by
  intro a j hj x hx
  rw [Array.size_setIfInBounds]
  rw [Array.getElem?_setIfInBounds] at hj
  split at hj
  · split at hj
    · obtain rfl := Option.some.inj hj
      exact hi x hx
    · cases hj
  · exact hp a j hj x hx

theorem mem_targets_forkTo {x : Nat} : x ∈ (forkTo greedy a b).targets ↔ x = a ∨ x = b := by
  cases greedy <;> simp [forkTo, Instruction.targets, or_comm]

/-! ## Compilers -/

/-- Instructions are put in front of others, and match what `R` relates. -/
structure Compiles (text : Array Char) (one : Nat → Program → Nat × Program)
    (R : Cursor → Cursor → Prop) : Prop where
  size_le : ∀ next (p : Program), p.size ≤ (one next p).2.size
  keeps : ∀ next {p : Program} {a}, a < p.size → (one next p).2[a]? = p[a]?
  start_lt : ∀ {next} {p : Program}, next < p.size → (one next p).1 < (one next p).2.size
  /-- None of the new instructions accepts. -/
  goes_on : ∀ next {p : Program} {a}, p.size ≤ a → (one next p).2[a]? ≠ some .accept
  closed : ∀ {next} {p : Program}, next < p.size → p.Closed → (one next p).2.Closed
  block : ∀ {next} {p q : Program}, next < p.size →
    (∀ a, p.size ≤ a → a < (one next p).2.size → q[a]? = (one next p).2[a]?) →
      Block text q p.size (one next p).2.size R (one next p).1 next

namespace Compiles

theorem congr (h : ∀ c d, R c d ↔ S c d) (hc : Compiles text one R) : Compiles text one S := by
  obtain rfl : R = S := funext fun c => funext fun d => propext (h c d)
  exact hc

theorem empty : Compiles text (fun next p => (next, p)) fun c d => d = c where
  size_le _ _ := Nat.le_refl _
  keeps _ _ _ _ := rfl
  start_lt h := h
  goes_on _ p a ha := by simp [ha]
  closed _ hp := hp
  block _ _ := .empty

/-- One instruction that has one successor at most. -/
theorem push {f : Nat → Instruction} (htargets : ∀ next, (f next).targets = [next])
    (hnext : ∀ {q : Program} {a next : Nat} {c : Cursor} {u : Thread}, q[a]? = some (f next) →
      (Next q text (c.at a) u ↔ ∃ d, R c d ∧ u = d.at next)) :
    Compiles text (fun next p => (p.size, p.push (f next))) R where
  size_le _ p := (size_lt_push p _).le
  keeps _ p a ha := getElem?_push_of_lt ha _
  start_lt _ := size_lt_push ..
  goes_on next p a ha := by
    rw [Array.getElem?_push]
    split
    · intro haccept
      have hnil := htargets next
      rw [Option.some.inj haccept] at hnil
      cases hnil
    · simp [ha]
  closed h hp := hp.push fun x hx => by
    rw [htargets, List.mem_singleton] at hx
    omega
  block {next p q} _ hq := by
    have hsize := size_lt_push p (f next)
    have hi : q[p.size]? = some (f next) := by
      rw [hq p.size (Nat.le_refl _) hsize, Array.getElem?_push_size]
    exact .one (hnext hi) (Nat.le_refl _) hsize

theorem seq (h : Compiles text one R) (h' : Compiles text other S) :
    Compiles text (fun next p => one (other next p).1 (other next p).2)
      fun c d => ∃ f, R c f ∧ S f d where
  size_le next p := (h'.size_le next p).trans (h.size_le _ _)
  keeps next p a ha := by
    rw [h.keeps _ (Nat.lt_of_lt_of_le ha (h'.size_le next p)), h'.keeps next ha]
  start_lt hnext := h.start_lt (h'.start_lt hnext)
  goes_on next p a ha := by
    by_cases ha' : a < (other next p).2.size
    · rw [h.keeps _ ha']
      exact h'.goes_on next ha
    · exact h.goes_on _ (Nat.le_of_not_lt ha')
  closed hnext hp := h.closed (h'.start_lt hnext) (h'.closed hnext hp)
  block {next p q} hnext hq := by
    have hle' := h'.size_le next p
    have hle := h.size_le (other next p).1 (other next p).2
    have hfirst := h.block (h'.start_lt hnext) (q := q) fun a ha => hq a (hle'.trans ha)
    have hsecond := h'.block hnext (q := q) fun a ha ha' => by
      rw [hq a ha (Nat.lt_of_lt_of_le ha' hle), h.keeps _ ha']
    exact (hfirst.mono hle' (Nat.le_refl _)).comp (hsecond.mono (Nat.le_refl _) hle)

theorem alt (h : Compiles text one R) (h' : Compiles text other S) :
    Compiles text (fun next p => ((other next (one next p).2).2.size,
        (other next (one next p).2).2.push (.fork (one next p).1 (other next (one next p).2).1)))
      fun c d => R c d ∨ S c d where
  size_le next p := ((h.size_le next p).trans (h'.size_le _ _)).trans (size_lt_push _ _).le
  keeps next p a ha := by
    have ha' := Nat.lt_of_lt_of_le ha (h.size_le next p)
    rw [getElem?_push_of_lt (Nat.lt_of_lt_of_le ha' (h'.size_le _ _)), h'.keeps _ ha',
      h.keeps _ ha]
  start_lt _ := size_lt_push ..
  goes_on next p a ha := by
    rw [Array.getElem?_push]
    split
    · nofun
    · by_cases ha' : a < (one next p).2.size
      · rw [h'.keeps _ ha']
        exact h.goes_on next ha
      · exact h'.goes_on _ (Nat.le_of_not_lt ha')
  closed {next p} hnext hp := by
    have hnext' := Nat.lt_of_lt_of_le hnext (h.size_le next p)
    refine (h'.closed hnext' (h.closed hnext hp)).push fun x hx => ?_
    have hfirst := Nat.lt_of_lt_of_le (h.start_lt hnext) (h'.size_le next (one next p).2)
    have hsecond := h'.start_lt hnext'
    simp only [Instruction.targets, List.mem_cons, List.not_mem_nil, or_false] at hx
    rcases hx with rfl | rfl <;> omega
  block {next p q} hnext hq := by
    rw [Array.size_push] at hq ⊢
    have hle := h.size_le next p
    have hle' := h'.size_le next (one next p).2
    have hnext' := Nat.lt_of_lt_of_le hnext hle
    have hq' : ∀ a, p.size ≤ a → a < (other next (one next p).2).2.size →
        q[a]? = (other next (one next p).2).2[a]? := fun a ha ha' => by
      rw [hq a ha (Nat.lt_succ_of_lt ha'), getElem?_push_of_lt ha']
    have hfirst := h.block hnext (q := q) fun a ha ha' => by
      rw [hq' a ha (Nat.lt_of_lt_of_le ha' hle'), h'.keeps _ ha']
    have hsecond := h'.block hnext' (q := q) fun a ha ha' => hq' a (hle.trans ha) ha'
    have hfork : q[(other next (one next p).2).2.size]? =
        some (forkTo true (one next p).1 (other next (one next p).2).1) := by
      rw [hq _ (hle.trans hle') (Nat.lt_succ_self _), Array.getElem?_push_size]
      rfl
    exact .fork hfork (hle.trans hle') (Nat.lt_succ_self _)
      (hfirst.mono (Nat.le_refl _) (Nat.le_succ_of_le hle'))
      (hsecond.mono hle (Nat.le_succ _))

/-! ## Loops -/

section

variable (h : Compiles text one R)
include h

theorem size_lt_compileLoop (greedy : Bool) (next : Nat) (p : Program) :
    p.size < (compileLoop one greedy next p).2.size := by
  have hle := h.size_le p.size (p.push .accept)
  rw [Array.size_push] at hle
  rw [compileLoop, Array.size_setIfInBounds]
  exact hle

theorem keeps_compileLoop (ha : a < p.size) : (compileLoop one greedy next p).2[a]? = p[a]? := by
  have ha' : a < (p.push .accept).size := ha.trans (size_lt_push ..)
  rw [compileLoop, Array.getElem?_setIfInBounds, if_neg (Nat.ne_of_gt ha), h.keeps _ ha',
    getElem?_push_of_lt ha]

theorem start_lt_compileLoop :
    (compileLoop one greedy next p).1 < (compileLoop one greedy next p).2.size := by
  rw [compileLoop, Array.size_setIfInBounds]
  exact h.start_lt (size_lt_push ..)

theorem goes_on_compileLoop (ha : p.size ≤ a) :
    (compileLoop one greedy next p).2[a]? ≠ some .accept := by
  rw [compileLoop, Array.getElem?_setIfInBounds]
  split
  · split
    · cases greedy <;> simp [forkTo]
    · nofun
  · next hne =>
    refine h.goes_on _ ?_
    rw [Array.size_push]
    omega

theorem closed_compileLoop (hnext : next < p.size) (hp : p.Closed) :
    (compileLoop one greedy next p).2.Closed := by
  have hback := size_lt_push p .accept
  have hinner := h.closed hback (hp.push (i := .accept) nofun)
  refine hinner.set (fun x hx => ?_) _
  have hsize := h.size_lt_compileLoop greedy next p
  rw [compileLoop, Array.size_setIfInBounds] at hsize
  rcases mem_targets_forkTo.1 hx with rfl | rfl
  · exact h.start_lt hback
  · exact hnext.trans hsize

/-- The fork in front of a loop repeats its body, which leads back to the fork. -/
theorem block_compileLoop
    (hq : ∀ a, p.size ≤ a → a < (compileLoop one greedy next p).2.size →
      q[a]? = (compileLoop one greedy next p).2[a]?) :
    Block text q p.size (compileLoop one greedy next p).2.size R
        (compileLoop one greedy next p).1 p.size ∧
      Block text q p.size (compileLoop one greedy next p).2.size (fun c d => ∃ n, Times R n c d)
        p.size next := by
  have hback := size_lt_push p .accept
  have hsize := h.size_lt_compileLoop greedy next p
  have hfork : q[p.size]? = some (forkTo greedy (compileLoop one greedy next p).1 next) := by
    rw [hq _ (Nat.le_refl _) hsize]
    rw [compileLoop, Array.size_setIfInBounds] at hsize
    rw [compileLoop, Array.getElem?_setIfInBounds, if_pos rfl, if_pos hsize]
  have hbody : Block text q p.size (compileLoop one greedy next p).2.size R
      (compileLoop one greedy next p).1 p.size := by
    have hinner := h.block hback (q := q) fun a ha ha' => by
      rw [Array.size_push] at ha
      rw [hq a (Nat.le_of_succ_le ha) (by rwa [compileLoop, Array.size_setIfInBounds]),
        compileLoop, Array.getElem?_setIfInBounds, if_neg (Nat.ne_of_lt ha)]
    refine hinner.mono hback.le ?_
    rw [compileLoop, Array.size_setIfInBounds]
  exact ⟨hbody, .loop hfork (Nat.le_refl _) hsize hbody⟩

/-- A loop that is entered at its body. -/
theorem loop (greedy : Bool) :
    Compiles text (compileLoop one greedy) fun c d => ∃ n, Times R (n + 1) c d where
  size_le next p := (h.size_lt_compileLoop greedy next p).le
  keeps _ _ _ ha := h.keeps_compileLoop ha
  start_lt _ := h.start_lt_compileLoop
  goes_on _ _ _ ha := h.goes_on_compileLoop ha
  closed hnext hp := h.closed_compileLoop hnext hp
  block _ hq := by
    obtain ⟨hbody, hloop⟩ := h.block_compileLoop hq
    refine (hbody.comp hloop).congr fun c d => ?_
    constructor
    · rintro ⟨f, hR, n, hn⟩
      exact ⟨n, f, hR, hn⟩
    · rintro ⟨n, f, hR, hn⟩
      exact ⟨f, hR, n, hn⟩

/-- A loop that is entered at its fork. -/
theorem star (greedy : Bool) :
    Compiles text (fun next p => (p.size, (compileLoop one greedy next p).2))
      fun c d => ∃ n, Times R n c d where
  size_le next p := (h.size_lt_compileLoop greedy next p).le
  keeps _ _ _ ha := h.keeps_compileLoop ha
  start_lt _ := h.size_lt_compileLoop ..
  goes_on _ _ _ ha := h.goes_on_compileLoop ha
  closed hnext hp := h.closed_compileLoop hnext hp
  block _ hq := (h.block_compileLoop hq).2

theorem times (n : Nat) : Compiles text (compileTimes one n) (Times R n) := by
  induction n with
  | zero => exact .empty
  | succ n ih => exact (ih.seq h).congr fun c d => times_succ_iff.symm

end

end Compiles

/-! ## Options -/

/-- A relation a number of times in a row at most. -/
def UpTo (R : Cursor → Cursor → Prop) (n : Nat) (c d : Cursor) : Prop := ∃ k ≤ n, Times R k c d

theorem upTo_zero_iff : UpTo R 0 c d ↔ d = c := by
  constructor
  · rintro ⟨k, hk, h⟩
    obtain rfl := Nat.le_zero.1 hk
    exact h
  · exact fun h => ⟨0, Nat.le_refl _, h⟩

theorem upTo_succ_iff : UpTo R (n + 1) c d ↔ (∃ f, R c f ∧ UpTo R n f d) ∨ d = c := by
  constructor
  · rintro ⟨k, hk, h⟩
    cases k with
    | zero => exact .inr h
    | succ k =>
      obtain ⟨f, hR, hf⟩ := h
      exact .inl ⟨f, hR, k, Nat.le_of_succ_le_succ hk, hf⟩
  · rintro (⟨f, hR, k, hk, hf⟩ | rfl)
    · exact ⟨k + 1, Nat.succ_le_succ hk, f, hR, hf⟩
    · exact ⟨0, Nat.zero_le _, rfl⟩

namespace Compiles

theorem start_lt_compileOptions {leave : Nat} (hnext : next < p.size) :
    (compileOptions one greedy leave n next p).1 <
      (compileOptions one greedy leave n next p).2.size := by
  induction n generalizing next p with
  | zero => exact hnext
  | succ n ih =>
    rw [compileOptions]
    exact ih (size_lt_push ..)

section

variable (h : Compiles text one R) {leave : Nat}
include h

theorem size_le_compileOptions (greedy : Bool) (leave n next : Nat) (p : Program) :
    p.size ≤ (compileOptions one greedy leave n next p).2.size := by
  induction n generalizing next p with
  | zero => exact Nat.le_refl _
  | succ n ih =>
    have hn := ih (one next p).2.size ((one next p).2.push (forkTo greedy (one next p).1 leave))
    rw [Array.size_push] at hn
    exact ((h.size_le next p).trans (Nat.le_succ _)).trans hn

theorem keeps_compileOptions (ha : a < p.size) :
    (compileOptions one greedy leave n next p).2[a]? = p[a]? := by
  induction n generalizing next p with
  | zero => rfl
  | succ n ih =>
    have ha' := Nat.lt_of_lt_of_le ha (h.size_le next p)
    rw [compileOptions, ih (ha'.trans (size_lt_push ..)), getElem?_push_of_lt ha',
      h.keeps _ ha]

theorem goes_on_compileOptions (ha : p.size ≤ a) :
    (compileOptions one greedy leave n next p).2[a]? ≠ some .accept := by
  induction n generalizing next p with
  | zero => simp [compileOptions, ha]
  | succ n ih =>
    have hpush : ((one next p).2.push (forkTo greedy (one next p).1 leave)).size =
        (one next p).2.size + 1 := Array.size_push ..
    rw [compileOptions]
    by_cases ha' : a < (one next p).2.size + 1
    · rw [h.keeps_compileOptions (by rwa [hpush]), Array.getElem?_push]
      split
      · cases greedy <;> simp [forkTo]
      · exact h.goes_on next ha
    · exact ih (by rw [hpush]; exact Nat.le_of_not_lt ha')

theorem closed_compileOptions (hnext : next < p.size) (hleave : leave < p.size) (hp : p.Closed) :
    (compileOptions one greedy leave n next p).2.Closed := by
  induction n generalizing next p with
  | zero => exact hp
  | succ n ih =>
    have hleave' := Nat.lt_of_lt_of_le hleave (h.size_le next p)
    have hstart := h.start_lt hnext
    rw [compileOptions]
    refine ih (size_lt_push ..) (hleave'.trans (size_lt_push ..)) ?_
    refine (h.closed hnext hp).push fun x hx => ?_
    rcases mem_targets_forkTo.1 hx with rfl | rfl <;> omega

/-- Every option in front of instructions allows for one more time. -/
theorem block_compileOptions {lo m : Nat} (hlo : lo ≤ p.size) (hnext : next < p.size)
    (hrest : Block text q lo p.size (UpTo R m) next leave)
    (hq : ∀ a, p.size ≤ a → a < (compileOptions one greedy leave n next p).2.size →
      q[a]? = (compileOptions one greedy leave n next p).2[a]?) :
    Block text q lo (compileOptions one greedy leave n next p).2.size (UpTo R (m + n))
      (compileOptions one greedy leave n next p).1 leave := by
  induction n generalizing next p m with
  | zero => exact hrest
  | succ n ih =>
    have hle := h.size_le next p
    have hpush : ((one next p).2.push (forkTo greedy (one next p).1 leave)).size =
        (one next p).2.size + 1 := Array.size_push ..
    have hsize := h.size_le_compileOptions greedy leave n (one next p).2.size
      ((one next p).2.push (forkTo greedy (one next p).1 leave))
    rw [compileOptions] at hq ⊢
    rw [hpush] at hsize
    have hnew : ∀ a, p.size ≤ a → a < (one next p).2.size + 1 → q[a]? =
        ((one next p).2.push (forkTo greedy (one next p).1 leave))[a]? := fun a ha ha' => by
      rw [hq a ha (Nat.lt_of_lt_of_le ha' hsize), h.keeps_compileOptions (by rwa [hpush])]
    have hfork : q[(one next p).2.size]? = some (forkTo greedy (one next p).1 leave) := by
      rw [hnew _ hle (Nat.lt_succ_self _), Array.getElem?_push_size]
    have hbody := h.block hnext (q := q) fun a ha ha' => by
      rw [hnew a ha (Nat.lt_succ_of_lt ha'), getElem?_push_of_lt ha']
    have hmore : Block text q lo ((one next p).2.size + 1) (UpTo R (m + 1))
        (one next p).2.size leave := by
      refine (Block.fork hfork (hlo.trans hle) (Nat.lt_succ_self _) ?_ .empty).congr
        fun c d => upTo_succ_iff.symm
      exact (hbody.mono hlo (Nat.le_succ _)).comp
        (hrest.mono (Nat.le_refl _) (Nat.le_succ_of_le hle))
    rw [← Nat.succ_add_eq_add_succ]
    refine ih (by rw [hpush]; omega) (by rw [hpush]; exact Nat.lt_succ_self _)
      (by rwa [hpush]) fun a ha => hq a (by rw [hpush] at ha; omega)

theorem options (greedy : Bool) (n : Nat) :
    Compiles text (fun next p => compileOptions one greedy next n next p) (UpTo R n) where
  size_le _ _ := h.size_le_compileOptions ..
  keeps _ _ _ ha := h.keeps_compileOptions ha
  start_lt hnext := start_lt_compileOptions hnext
  goes_on _ _ _ ha := h.goes_on_compileOptions ha
  closed hnext hp := h.closed_compileOptions hnext hnext hp
  block {next p q} hnext hq := by
    have hempty : Block text q p.size p.size (UpTo R 0) next next :=
      Block.empty.congr fun c d => upTo_zero_iff.symm
    have hblock := h.block_compileOptions (Nat.le_refl _) hnext hempty hq
    rwa [Nat.zero_add] at hblock

end

end Compiles

/-! ## Expressions -/

theorem compiles_capture {e : Expr} (h : Compiles text (compile e) (e.Leads text)) :
    Compiles text (compile (.capture e)) ((Expr.capture e).Leads text) := by
  have hopen : Compiles text (fun next p => (p.size, p.push (.openGroup next)))
      fun c d => d = { c with opened := some c.place } :=
    .push (fun _ => rfl) fun hq => (next_openGroup hq).trans (by simp)
  have hclose : Compiles text (fun next p => (p.size, p.push (.closeGroup next)))
      fun c d => d = { c with group := c.opened.map fun s => (s, c.place) } :=
    .push (fun _ => rfl) fun hq => (next_closeGroup hq).trans (by simp)
  refine (hopen.seq (h.seq hclose)).congr fun c d => ?_
  simp [Expr.Leads]

section

variable {e : Expr} (h : Compiles text (compile e) (e.Leads text))
include h

theorem compiles_bounded (least most : Nat) (greedy : Bool) :
    Compiles text (compile (.repetition e least (some most) greedy))
      ((Expr.repetition e least (some most) greedy).Leads text) := by
  refine ((h.times least).seq (h.options greedy (most - least))).congr fun c d => ?_
  simp only [Expr.Leads, UpTo, times_add_iff, Option.mem_some_iff, forall_eq']
  constructor
  · rintro ⟨f, hf, n, hn, hd⟩
    exact ⟨n, hn, f, hf, hd⟩
  · rintro ⟨n, hn, f, hf, hd⟩
    exact ⟨f, hf, n, hn, hd⟩

/-- A loop can be left out where its body may match the empty text. -/
theorem compiles_anyNumber (greedy : Bool) :
    Compiles text (compile (.repetition e 0 none greedy))
      fun c d => ∃ n, Times (e.Leads text) n c d := by
  by_cases hmin : e.minLength > 0
  · have heq : compile (.repetition e 0 none greedy) =
        fun next p => (p.size, (compileLoop (compile e) greedy next p).2) := by
      funext next p
      rw [compile, if_pos rfl, if_pos hmin]
      rfl
    rw [heq]
    exact h.star greedy
  · have heq : compile (.repetition e 0 none greedy) =
        fun next p => compileOptions (compileLoop (compile e) greedy) greedy next 1 next p := by
      funext next p
      rw [compile, if_pos rfl, if_neg hmin]
      rfl
    rw [heq]
    refine ((h.loop greedy).options greedy 1).congr fun c d => ?_
    simp only [upTo_succ_iff, upTo_zero_iff, exists_eq_right']
    constructor
    · rintro (⟨n, hn⟩ | rfl)
      · exact ⟨n + 1, hn⟩
      · exact ⟨0, rfl⟩
    · rintro ⟨n, hn⟩
      cases n with
      | zero => exact .inr hn
      | succ n => exact .inl ⟨n, hn⟩

theorem compiles_atLeast (least : Nat) (greedy : Bool) :
    Compiles text (compile (.repetition e (least + 1) none greedy))
      fun c d => ∃ n, Times (e.Leads text) (least + 1 + n) c d := by
  have heq : compile (.repetition e (least + 1) none greedy) = fun next p =>
      compileTimes (compile e) least (compileLoop (compile e) greedy next p).1
        (compileLoop (compile e) greedy next p).2 := by
    funext next p
    rw [compile, if_neg (Nat.succ_ne_zero _)]
    rfl
  rw [heq]
  refine ((h.times least).seq (h.loop greedy)).congr fun c d => ?_
  constructor
  · rintro ⟨f, hf, n, hd⟩
    exact ⟨n, by rw [Nat.succ_add_eq_add_succ]; exact hf.trans hd⟩
  · rintro ⟨n, hn⟩
    rw [Nat.succ_add_eq_add_succ] at hn
    obtain ⟨f, hf, hd⟩ := times_add_iff.1 hn
    exact ⟨f, hf, n, hd⟩

theorem compiles_repetition (least : Nat) (most : Option Nat) (greedy : Bool) :
    Compiles text (compile (.repetition e least most greedy))
      ((Expr.repetition e least most greedy).Leads text) := by
  have hleads : ∀ least c d, (Expr.repetition e least none greedy).Leads text c d ↔
      ∃ n, Times (e.Leads text) (least + n) c d := fun least c d => by simp [Expr.Leads]
  cases most with
  | some most => exact compiles_bounded h least most greedy
  | none =>
    cases least with
    | zero =>
      refine (compiles_anyNumber h greedy).congr fun c d => ?_
      simp only [hleads, Nat.zero_add]
    | succ least => exact (compiles_atLeast h least greedy).congr fun c d => (hleads _ c d).symm

end

/-- What an expression is compiled to matches what the expression matches. -/
theorem compiles_compile (e : Expr) : Compiles text (compile e) (e.Leads text) := by
  induction e with
  | empty => exact .empty
  | set s => exact .push (fun _ => rfl) next_take
  | assertion a => exact .push (fun _ => rfl) next_check
  | capture e ih => exact compiles_capture ih
  | seq a b iha ihb => exact iha.seq ihb
  | alt a b iha ihb => exact iha.alt ihb
  | repetition e least most greedy ih => exact compiles_repetition ih least most greedy

/-! ## Programs -/

theorem closed_ofExpr (e : Expr) : (Program.ofExpr e).2.Closed := by
  have hc : Compiles #[] (compile e) (e.Leads #[]) := compiles_compile e
  have haccept : Program.Closed #[.accept] := Program.Closed.push (p := #[]) nofun nofun
  exact hc.closed Nat.zero_lt_one haccept

theorem start_lt_ofExpr (e : Expr) : (Program.ofExpr e).1 < (Program.ofExpr e).2.size := by
  have hc : Compiles #[] (compile e) (e.Leads #[]) := compiles_compile e
  exact hc.start_lt Nat.zero_lt_one

/-- The program of an expression finds what the expression matches. -/
theorem finds_ofExpr_iff {e : Expr} {found : Found} :
    Finds (Program.ofExpr e).2 text (c.at (Program.ofExpr e).1) found ↔
      ∃ d, e.Leads text c d ∧ found = ⟨d.place, d.group⟩ := by
  have hc : Compiles text (compile e) (e.Leads text) := compiles_compile e
  have hblock : Block text (Program.ofExpr e).2 1 (Program.ofExpr e).2.size (e.Leads text)
      (Program.ofExpr e).1 0 := hc.block Nat.zero_lt_one fun a _ _ => rfl
  have haccept : (Program.ofExpr e).2[0]? = some .accept := hc.keeps 0 Nat.zero_lt_one
  have hdone : ∀ d : Cursor, (d.at 0).step (Program.ofExpr e).2 text = .inl ⟨d.place, d.group⟩ :=
    fun d => step_eq_inl_iff.2 ⟨haccept, rfl⟩
  constructor
  · rintro ⟨n, u, hn, hu⟩
    have hout : ¬ (1 ≤ u.address ∧ u.address < (Program.ofExpr e).2.size) := fun h =>
      hc.goes_on 0 (p := #[.accept]) h.1 (step_eq_inl_iff.1 hu).1
    obtain ⟨d, m, -, hd, hm⟩ := hblock.leaves hn hout
    -- an accepting thread goes nowhere
    cases m with
    | zero =>
      obtain rfl : u = d.at 0 := hm
      exact ⟨d, hd, (Sum.inl.inj ((hdone d).symm.trans hu)).symm⟩
    | succ m =>
      obtain ⟨v, ⟨next, hnext, -⟩, -⟩ := hm
      cases (hdone d).symm.trans hnext
  · rintro ⟨d, hd, rfl⟩
    obtain ⟨n, hn⟩ := hblock.goes hd
    exact ⟨n, d.at 0, hn, hdone d⟩

end Layering.Regex
