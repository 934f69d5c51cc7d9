import Layering.Graph.Basic

/-!
# Strongly connected components

Depth-first search with low-links. Pending visits stand on an explicit stack of
frames, so the depth of the search is data; `step` is one move of the machine,
and a root's visit ends after at most as many moves as the graph has nodes and
edges together.
-/

namespace Layering.Graph

/-- A pending visit: its node, the node's successors, and how many of them have
been looked at. -/
structure Frame where
  node : GroupId
  successors : List GroupId
  cursor : Nat

/-- The state of the search. Each visited node has a number and a low-link, the
least number known to be reachable inside its component. The nodes that belong
to no finished component yet stand on the stack, latest first. -/
structure Visit where
  index : Nat
  indices : OrdMap GroupId Nat
  lowlinks : OrdMap GroupId Nat
  stack : List GroupId
  onStack : OrdSet GroupId
  components : List (List GroupId)
  work : List Frame

namespace Visit

/-- Before the first node. -/
def initial : Visit := ⟨0, .empty, .empty, [], .empty, [], []⟩

/-- Opens the visit of a node. -/
def enter (g : Graph) (s : Visit) (n : GroupId) : Visit where
  index := s.index + 1
  indices := s.indices.insert n s.index
  lowlinks := s.lowlinks.insert n s.index
  stack := n :: s.stack
  onStack := s.onStack.insert n
  components := s.components
  work := ⟨n, g.successors n, 0⟩ :: s.work

/-- The low-link of a node. -/
def low (s : Visit) (n : GroupId) : Nat := (s.lowlinks.get? n).getD 0

/-- Lowers a node's low-link to `k`. -/
def lower (s : Visit) (n : GroupId) (k : Nat) : Visit :=
  { s with lowlinks := s.lowlinks.insert n (min (s.low n) k) }

/-- The nodes of a stack down to and including `n`. -/
def upTo (n : GroupId) : List GroupId → List GroupId
  | [] => []
  | m :: l => if m = n then [m] else m :: upTo n l

/-- If `n` is the first node of its component, takes the component off the
stack. -/
def close (s : Visit) (n : GroupId) : Visit :=
  if s.lowlinks.get? n = s.indices.get? n then
    let component := upTo n s.stack
    { s with
      stack := s.stack.drop component.length
      onStack := component.foldl OrdSet.erase s.onStack
      components := s.components ++ [component] }
  else s

/-- One move: looks at the next successor of the topmost frame, or closes the
frame and hands its low-link to the frame below. -/
def step (g : Graph) (s : Visit) : Visit :=
  match s.work with
  | [] => s
  | f :: rest =>
    match f.successors[f.cursor]? with
    | some w =>
      let s := { s with work := { f with cursor := f.cursor + 1 } :: rest }
      match s.indices.get? w with
      | none => s.enter g w
      | some k => if w ∈ s.onStack then s.lower f.node k else s
    | none =>
      let s := close { s with work := rest } f.node
      match rest with
      | [] => s
      | p :: _ => s.lower p.node (s.low f.node)

/-- Moves until no frame is pending, at most `fuel` times. -/
def run (g : Graph) : Nat → Visit → Visit
  | 0, s => s
  | fuel + 1, s => if s.work.isEmpty then s else run g fuel (s.step g)

/-- Visits everything reachable from a root that has not been visited. -/
def explore (g : Graph) (s : Visit) (root : GroupId) : Visit :=
  if (s.indices.get? root).isSome then s else (s.enter g root).run g (g.nodeCount + g.edgeCount)

end Visit

/-- The strongly connected components, each in the order in which its nodes leave
the stack, a component after all those it can reach. -/
def components (g : Graph) : List (List GroupId) :=
  (g.nodes.toList.foldl (Visit.explore g) .initial).components

end Layering.Graph
