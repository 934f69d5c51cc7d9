import Layering.Regex.Basic
import Std.Data.HashSet

/-!
# Matching regular expressions

An expression becomes a program whose instructions stand at addresses; `fork`
prefers its first branch. A match is found by backtracking: of all matches the
one that starts first counts, and of those the preferred one. Each pair of an
address and a place in the text is tried once, which bounds the search.
-/

namespace Layering.Regex

/-- An instruction. -/
inductive Instruction
  | accept
  | take (s : CharSet) (next : Nat)
  | check (a : Assertion) (next : Nat)
  | fork (first second : Nat)
  | openGroup (next : Nat)
  | closeGroup (next : Nat)

/-- Instructions by address. -/
abbrev Program := Array Instruction

/-- A fork that prefers to go on if `greedy`, and to leave otherwise. -/
def forkTo (greedy : Bool) (body leave : Nat) : Instruction :=
  if greedy then .fork body leave else .fork leave body

/-- Compiles something a number of times in a row, where `next` follows. -/
def compileTimes (one : Nat → Program → Nat × Program) : Nat → (next : Nat) → Program → Nat × Program
  | 0, next, p => (next, p)
  | n + 1, next, p =>
    let (start, p) := one next p
    compileTimes one n start p

/-- Compiles something that may be left out up to a number of times, where
`leave` follows. -/
def compileOptions (one : Nat → Program → Nat × Program) (greedy : Bool) (leave : Nat) :
    Nat → (next : Nat) → Program → Nat × Program
  | 0, next, p => (next, p)
  | n + 1, next, p =>
    let (body, p) := one next p
    compileOptions one greedy leave n p.size (p.push (forkTo greedy body leave))

/-- Compiles something that is done once or more, where `leave` follows. -/
def compileLoop (one : Nat → Program → Nat × Program) (greedy : Bool) (leave : Nat) (p : Program) :
    Nat × Program :=
  let back := p.size
  let (body, p) := one back (p.push .accept)
  (body, p.setIfInBounds back (forkTo greedy body leave))

/-- Adds the program of an expression in front of `next`; the answer is where it
starts. -/
def compile : Expr → (next : Nat) → Program → Nat × Program
  | .empty, next, p => (next, p)
  | .set s, next, p => (p.size, p.push (.take s next))
  | .assertion a, next, p => (p.size, p.push (.check a next))
  | .capture e, next, p =>
    let close := p.size
    let (body, p) := compile e close (p.push (.closeGroup next))
    (p.size, p.push (.openGroup body))
  | .seq a b, next, p =>
    let (start, p) := compile b next p
    compile a start p
  | .alt a b, next, p =>
    let (first, p) := compile a next p
    let (second, p) := compile b next p
    (p.size, p.push (.fork first second))
  | .repetition e least none greedy, next, p =>
    if least = 0 then
      if e.minLength > 0 then
        let back := p.size
        let (body, p) := compile e back (p.push .accept)
        (back, p.setIfInBounds back (forkTo greedy body next))
      else
        let (body, p) := compileLoop (compile e) greedy next p
        (p.size, p.push (forkTo greedy body next))
    else
      let (start, p) := compileLoop (compile e) greedy next p
      compileTimes (compile e) (least - 1) start p
  | .repetition e least (some most) greedy, next, p =>
    let (start, p) := compileOptions (compile e) greedy next (most - least) next p
    compileTimes (compile e) least start p

/-- The program of an expression, and where it starts. -/
def Program.ofExpr (e : Expr) : Nat × Program := compile e 0 #[.accept]

/-- A thread of the search: an instruction, a place in the text, and where the
group starts and ends if it has been matched. -/
structure Thread where
  address : Nat
  place : Nat
  opened : Option Nat
  group : Option (Nat × Nat)

/-- A match: where it ends, and its group. -/
structure Found where
  stop : Nat
  group : Option (Nat × Nat)

/-- The pairs of an address and a place that have been tried, as numbers. -/
abbrev Tried := Std.HashSet Nat

/-- What a thread does: it accepts, or other threads take its place. -/
def Thread.step (program : Program) (text : Array Char) (t : Thread) : Found ⊕ List Thread :=
  match program[t.address]? with
  | none => .inr []
  | some i =>
    match i with
    | .accept => .inl ⟨t.place, t.group⟩
    | .take s next =>
      match text[t.place]? with
      | some c => .inr (if s c then [{ t with address := next, place := t.place + 1 }] else [])
      | none => .inr []
    | .check a next =>
      let before := if t.place = 0 then none else text[t.place - 1]?
      .inr (if a.holds before text[t.place]? then [{ t with address := next }] else [])
    | .fork a b => .inr [{ t with address := a }, { t with address := b }]
    | .openGroup next => .inr [{ t with address := next, opened := some t.place }]
    | .closeGroup next =>
      .inr [{ t with address := next, group := t.opened.map fun s => (s, t.place) }]

/-- Runs threads, the first one first, until one accepts. -/
def search (program : Program) (text : Array Char) :
    (fuel : Nat) → List Thread → Tried → Option Found × Tried
  | 0, _, tried => (none, tried)
  | _ + 1, [], tried => (none, tried)
  | fuel + 1, t :: ts, tried =>
    let key := t.place * program.size + t.address
    if tried.contains key then search program text fuel ts tried
    else
      match t.step program text with
      | .inl found => (some found, tried)
      | .inr next => search program text fuel (next ++ ts) (tried.insert key)

/-- The first match that starts at one of `count` places from `place` on. What has
been tried in vain from an earlier start need not be tried again. -/
def findFrom (program : Program) (start : Nat) (text : Array Char) :
    (count : Nat) → (place : Nat) → Tried → Option (Nat × Found)
  | 0, _, _ => none
  | count + 1, place, tried =>
    let fuel := 3 * program.size * (text.size + 1) + 3
    match search program text fuel [⟨start, place, none, none⟩] tried with
    | (some found, _) => some (place, found)
    | (none, tried) => findFrom program start text count (place + 1) tried

/-- The matches from a place on, none of which overlap. An empty match that ends
where the last match ended does not count. -/
def findAll (program : Program) (start : Nat) (text : Array Char) :
    (fuel : Nat) → (place : Nat) → (last : Option Nat) → List Found
  | 0, _, _ => []
  | fuel + 1, place, last =>
    if place > text.size then []
    else
      match findFrom program start text (text.size + 1 - place) place ∅ with
      | none => []
      | some (s, found) =>
        if s = found.stop && last = some found.stop then
          findAll program start text fuel (place + 1) last
        else found :: findAll program start text fuel found.stop (some found.stop)

end Layering.Regex
