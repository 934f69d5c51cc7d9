import Layering.Graph.Component

/-!
# Moves with look-ups

The moves of the search for components once more. A number or a low-link that is looked up may be
missing, and then there is no move; the nodes of a component are taken off the stack one by one.
-/

namespace Layering.Graph.Visit

/-- Takes nodes off a stack and out of a set, up to and including `n`. The answer is what is left
of both, and `taken` with these nodes behind it. -/
def popTo (n : GroupId) : (stack : List GroupId) → (onStack : OrdSet GroupId) →
    (taken : List GroupId) → List GroupId × OrdSet GroupId × List GroupId
  | [], onStack, taken => ([], onStack, taken)
  | m :: l, onStack, taken =>
    if m = n then (l, onStack.erase m, taken ++ [m])
    else popTo n l (onStack.erase m) (taken ++ [m])

/-- Lowers the low-link of a node to `k`. -/
def lower? (s : Visit) (n : GroupId) (k : Nat) : Option Visit := do
  let low ← s.lowlinks.get? n
  return { s with lowlinks := s.lowlinks.insert n (min low k) }

/-- If `n` is the first node of its component, takes the component off the stack. -/
def close? (s : Visit) (n : GroupId) : Option Visit := do
  let low ← s.lowlinks.get? n
  let num ← s.indices.get? n
  if low = num then
    let (stack, onStack, component) := popTo n s.stack s.onStack []
    return { s with
      stack := stack
      onStack := onStack
      components := s.components ++ [component] }
  else return s

/-- One move, if nothing that is looked up is missing. -/
def step? (g : Graph) (s : Visit) : Option Visit :=
  match s.work with
  | [] => some s
  | f :: rest =>
    match f.successors[f.cursor]? with
    | some w =>
      let s := { s with work := { f with cursor := f.cursor + 1 } :: rest }
      match s.indices.get? w with
      | none => some (s.enter g w)
      | some k => if w ∈ s.onStack then s.lower? f.node k else some s
    | none => do
      let s ← close? { s with work := rest } f.node
      match rest with
      | [] => return s
      | p :: _ => s.lower? p.node (← s.lowlinks.get? f.node)

end Layering.Graph.Visit
