import Layering.Regex.Match
import Mathlib.Logic.Basic

/-!
# What expressions match

An expression leads from one cursor to another if it matches the text between them
(`Regex.Expr.Leads`). A program does so by its threads, one instruction after the other
(`Regex.Next`).
-/

namespace Layering.Regex

/-! ## Repeated relations -/

section

variable {α : Type} {R : α → α → Prop} {a b c : α} {m n : Nat}

/-- A relation a number of times in a row. -/
def Times (R : α → α → Prop) : Nat → α → α → Prop
  | 0, a, b => b = a
  | n + 1, a, c => ∃ b, R a b ∧ Times R n b c

theorem Times.one (h : R a b) : Times R 1 a b := ⟨b, h, rfl⟩

theorem times_add_iff : Times R (m + n) a c ↔ ∃ b, Times R m a b ∧ Times R n b c := by
  induction m generalizing a with
  | zero =>
    rw [Nat.zero_add]
    constructor
    · exact fun h => ⟨a, rfl, h⟩
    · rintro ⟨b, rfl, h⟩
      exact h
  | succ m ih =>
    rw [Nat.succ_add]
    constructor
    · rintro ⟨d, had, hd⟩
      obtain ⟨b, hb, hbc⟩ := ih.1 hd
      exact ⟨b, ⟨d, had, hb⟩, hbc⟩
    · rintro ⟨b, ⟨d, had, hb⟩, hbc⟩
      exact ⟨d, had, ih.2 ⟨b, hb, hbc⟩⟩

theorem Times.trans (h : Times R m a b) (h' : Times R n b c) : Times R (m + n) a c :=
  times_add_iff.2 ⟨b, h, h'⟩

theorem times_succ_iff : Times R (n + 1) a c ↔ ∃ b, Times R n a b ∧ R b c := by
  refine times_add_iff.trans (exists_congr fun b => and_congr_right fun _ => ?_)
  exact ⟨fun ⟨_, h, he⟩ => he ▸ h, .one⟩

end

/-! ## Expressions -/

/-- A place in a text, and where the group starts and ends if it has been matched. -/
structure Cursor where
  place : Nat
  opened : Option Nat
  group : Option (Nat × Nat)

variable {text : Array Char}

/-- The character in front of a place. -/
def charBefore (text : Array Char) (place : Nat) : Option Char :=
  if place = 0 then none else text[place - 1]?

/-- An expression matches the text between two cursors. -/
def Expr.Leads (text : Array Char) : Expr → Cursor → Cursor → Prop
  | .empty => fun c d => d = c
  | .set s => fun c d =>
    ∃ x, text[c.place]? = some x ∧ s x ∧ d = { c with place := c.place + 1 }
  | .assertion a => fun c d => a.holds (charBefore text c.place) text[c.place]? ∧ d = c
  | .repetition e least most _ => fun c d =>
    ∃ n, (∀ m ∈ most, n ≤ m - least) ∧ Times (e.Leads text) (least + n) c d
  | .capture e => fun c d => ∃ f, e.Leads text { c with opened := some c.place } f ∧
    d = { f with group := f.opened.map fun s => (s, f.place) }
  | .seq a b => fun c d => ∃ f, a.Leads text c f ∧ b.Leads text f d
  | .alt a b => fun c d => a.Leads text c d ∨ b.Leads text c d

/-! ## Programs -/

/-- The thread that goes on from a cursor at an address. -/
def Cursor.at (c : Cursor) (address : Nat) : Thread := ⟨address, c.place, c.opened, c.group⟩

@[simp] theorem Cursor.place_at (c : Cursor) (a : Nat) : (c.at a).place = c.place := rfl

/-- A thread takes the place of another one. -/
def Next (q : Program) (text : Array Char) (t u : Thread) : Prop :=
  ∃ next, t.step q text = .inr next ∧ u ∈ next

variable {q : Program} {c : Cursor} {u : Thread} {a x y next : Nat}

theorem next_take {s : CharSet} (h : q[a]? = some (.take s next)) :
    Next q text (c.at a) u ↔ ∃ d, (Expr.set s).Leads text c d ∧ u = d.at next := by
  simp only [Next, Thread.step, Cursor.at, h, Expr.Leads]
  cases hchar : text[c.place]? with
  | none => simp
  | some z => by_cases hs : s z <;> simp [hs]

theorem next_check {b : Assertion} (h : q[a]? = some (.check b next)) :
    Next q text (c.at a) u ↔ ∃ d, (Expr.assertion b).Leads text c d ∧ u = d.at next := by
  have hstep : (c.at a).step q text =
      .inr (if b.holds (charBefore text c.place) text[c.place]? then [c.at next] else []) := by
    simp only [Thread.step, Cursor.at, h, charBefore]
    rfl
  rw [Next, hstep]
  by_cases hb : b.holds (charBefore text c.place) text[c.place]? <;> simp [hb, Expr.Leads]

theorem next_fork (h : q[a]? = some (.fork x y)) :
    Next q text (c.at a) u ↔ u = c.at x ∨ u = c.at y := by
  simp [Next, Thread.step, Cursor.at, h]

theorem next_forkTo {greedy : Bool} (h : q[a]? = some (forkTo greedy x y)) :
    Next q text (c.at a) u ↔ u = c.at x ∨ u = c.at y := by
  cases greedy with
  | true => exact next_fork h
  | false => exact (next_fork h).trans or_comm

theorem next_openGroup (h : q[a]? = some (.openGroup next)) :
    Next q text (c.at a) u ↔ u = Cursor.at { c with opened := some c.place } next := by
  simp [Next, Thread.step, Cursor.at, h]

theorem next_closeGroup (h : q[a]? = some (.closeGroup next)) : Next q text (c.at a) u ↔
    u = Cursor.at { c with group := c.opened.map fun s => (s, c.place) } next := by
  simp [Next, Thread.step, Cursor.at, h]

/-- Only at an accepting instruction is there a match. -/
theorem step_eq_inl_iff {t : Thread} {found : Found} : t.step q text = .inl found ↔
    q[t.address]? = some .accept ∧ found = ⟨t.place, t.group⟩ := by
  rw [Thread.step]
  cases hi : q[t.address]? with
  | none => simp
  | some i =>
    cases i with
    | accept => simp [eq_comm (a := found)]
    | take s next => cases text[t.place]? <;> simp
    | _ => simp

/-- A thread leads to a match. -/
def Finds (q : Program) (text : Array Char) (t : Thread) (found : Found) : Prop :=
  ∃ n u, Times (Next q text) n t u ∧ u.step q text = .inl found

end Layering.Regex
