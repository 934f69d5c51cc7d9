import Layering.Ordered.Map

/-!
# Group graphs

Simple directed graphs over group ids with a weight on each edge. A graph has no
loops, at most one edge between an ordered pair, and no edge without its
endpoints; it is determined by its nodes and the weights of its edges.

* `Graph.weight?_addEdge`: what an added edge does to the weights;
* `Graph.mem_nodes_addEdge`: and to the nodes;
* `Graph.ext_weight?`: a graph is its nodes and weights;
* `Graph.mem_successors`: the successors of a node are its edges' targets.
-/

namespace Layering

/-- A group of units is known by its number. -/
abbrev GroupId := Nat

/-- An ordered pair of groups: the source depends on the target. -/
structure Edge where
  source : GroupId
  target : GroupId
  deriving DecidableEq

namespace Edge

/-- Edges are ordered by their source, then by their target. -/
instance : LT Edge := ⟨LexLt Edge.source Edge.target⟩

theorem lt_iff {a b : Edge} :
    a < b ↔ a.source < b.source ∨ (a.source = b.source ∧ a.target < b.target) := Iff.rfl

instance : DecidableLT Edge := fun a b =>
  inferInstanceAs (Decidable (a.source < b.source ∨ (a.source = b.source ∧ a.target < b.target)))

instance : StrictOrder Edge where
  irrefl := LexLt.irrefl
  trans := LexLt.trans
  trichotomy := LexLt.trichotomy fun ⟨_, _⟩ ⟨_, _⟩ h h' => by cases h; cases h'; rfl

/-- The text `g1 -> g2`. -/
def text (e : Edge) : String := s!"g{e.source} -> g{e.target}"

end Edge

/-- A simple directed graph with weighted edges. -/
structure Graph where
  nodes : OrdSet GroupId
  weights : OrdMap Edge Nat
  closed : ∀ e ∈ weights.keys, e.source ≠ e.target ∧ e.source ∈ nodes ∧ e.target ∈ nodes

namespace Graph

theorem eq_of_parts {g h : Graph} (hn : g.nodes = h.nodes) (hw : g.weights = h.weights) : g = h := by
  cases g; cases h; cases hn; cases hw; rfl

instance : DecidableEq Graph := fun g h =>
  if e : g.nodes = h.nodes ∧ g.weights = h.weights then isTrue (eq_of_parts e.1 e.2)
  else isFalse fun q => e (q ▸ ⟨rfl, rfl⟩)

/-- The graph without nodes. -/
def empty : Graph := ⟨.empty, .empty, fun _ h => absurd h (OrdSet.not_mem_empty _)⟩

instance : Inhabited Graph := ⟨empty⟩

/-- The graph with a node added. -/
def addNode (g : Graph) (n : GroupId) : Graph where
  nodes := g.nodes.insert n
  weights := g.weights
  closed e h := by
    have := g.closed e h
    simp [this]

/-- The graph with `w` added to the weight of an edge, which is put in with its
endpoints if it is missing. A loop changes nothing. -/
def addEdge (g : Graph) (e : Edge) (w : Nat) : Graph :=
  if hl : e.source = e.target then g
  else
    { nodes := (g.nodes.insert e.source).insert e.target
      weights := g.weights.alter e fun v => v.getD 0 + w
      closed := fun d h => by
        rw [OrdMap.keys_alter, OrdSet.mem_insert] at h
        rcases h with rfl | h
        · simp [hl]
        · have := g.closed d h
          simp [this] }

/-- The graph of some nodes without edges. -/
def ofNodes (ns : List GroupId) : Graph := ns.foldl addNode empty

/-- The graph of a list of edges, each of which weighs the number of its
occurrences. -/
def ofEdges (es : List Edge) : Graph := es.foldl (·.addEdge · 1) empty

/-- The weight of an edge of the graph. -/
def weight? (g : Graph) (e : Edge) : Option Nat := g.weights.get? e

/-- The edges in ascending order. -/
def edges (g : Graph) : OrdSet Edge := g.weights.keys

/-- The targets of the edges from a node, in ascending order. -/
def successors (g : Graph) (n : GroupId) : List GroupId :=
  (g.edges.toList.filter (·.source = n)).map Edge.target

/-- The number of nodes. -/
def nodeCount (g : Graph) : Nat := g.nodes.size

/-- The number of edges. -/
def edgeCount (g : Graph) : Nat := g.weights.size

/-- A one-line description. -/
def describe (g : Graph) : String :=
  "GroupGraph \x7b node_count: " ++ toString g.nodeCount ++ ", edge_count: " ++
    toString g.edgeCount ++ " \x7d"

/-- There is an edge from `a` to `b`. -/
def Adj (g : Graph) (a b : GroupId) : Prop := ⟨a, b⟩ ∈ g.edges

instance (g : Graph) (a b : GroupId) : Decidable (g.Adj a b) :=
  inferInstanceAs (Decidable (_ ∈ g.edges))

@[simp] theorem mem_edges {g : Graph} {e : Edge} : e ∈ g.edges ↔ (g.weight? e).isSome := OrdMap.mem_keys

@[simp] theorem mem_nodes_addNode {g : Graph} {n x : GroupId} :
    x ∈ (g.addNode n).nodes ↔ x = n ∨ x ∈ g.nodes := OrdSet.mem_insert

@[simp] theorem weight?_addNode (g : Graph) (n : GroupId) (e : Edge) :
    (g.addNode n).weight? e = g.weight? e := rfl

theorem weights_ofNodes (ns : List GroupId) : (ofNodes ns).weights = .empty := by
  have h : ∀ g : Graph, (ns.foldl addNode g).weights = g.weights := by
    induction ns with
    | nil => exact fun _ => rfl
    | cons n ns ih => exact fun g => ih (g.addNode n)
  exact h empty

@[simp] theorem weight?_ofNodes (ns : List GroupId) (e : Edge) : (ofNodes ns).weight? e = none := by
  rw [weight?, weights_ofNodes, OrdMap.get?_empty]

@[simp] theorem mem_nodes_ofNodes {ns : List GroupId} {x : GroupId} :
    x ∈ (ofNodes ns).nodes ↔ x ∈ ns := by
  have h : ∀ g : Graph, x ∈ (ns.foldl addNode g).nodes ↔ x ∈ ns ∨ x ∈ g.nodes := by
    induction ns with
    | nil => simp
    | cons n ns ih =>
      intro g
      rw [List.foldl_cons, ih, mem_nodes_addNode, List.mem_cons, or_assoc]
      exact or_left_comm
  rw [ofNodes, h]
  simp [empty]

theorem mem_nodes_addEdge {g : Graph} {e : Edge} {w : Nat} {x : GroupId} (h : e.source ≠ e.target) :
    x ∈ (g.addEdge e w).nodes ↔ x = e.target ∨ x = e.source ∨ x ∈ g.nodes := by
  rw [addEdge, dif_neg h]
  simp

theorem weight?_addEdge {g : Graph} {e : Edge} {w : Nat} (d : Edge) (h : e.source ≠ e.target) :
    (g.addEdge e w).weight? d = if d = e then some ((g.weight? e).getD 0 + w) else g.weight? d := by
  rw [addEdge, dif_neg h]
  exact OrdMap.get?_alter ..

@[simp] theorem addEdge_loop (g : Graph) {e : Edge} (w : Nat) (h : e.source = e.target) :
    g.addEdge e w = g := dif_pos h

/-- A graph is its nodes and the weights of its edges. -/
theorem ext_weight? {g h : Graph} (hn : ∀ x, x ∈ g.nodes ↔ x ∈ h.nodes)
    (hw : ∀ e, g.weight? e = h.weight? e) : g = h :=
  eq_of_parts (OrdSet.ext_mem hn) (OrdMap.ext_get? hw)

@[simp] theorem mem_successors {g : Graph} {n x : GroupId} : x ∈ g.successors n ↔ g.Adj n x := by
  simp only [successors, List.mem_map, List.mem_filter, decide_eq_true_eq, Adj]
  constructor
  · rintro ⟨⟨s, t⟩, ⟨h, rfl⟩, rfl⟩
    exact h
  · intro h
    exact ⟨⟨n, x⟩, ⟨h, rfl⟩, rfl⟩

theorem ascending_successors (g : Graph) (n : GroupId) : (g.successors n).Pairwise (· < ·) := by
  rw [successors, List.pairwise_map]
  refine (g.edges.ascending.filter _).imp_of_mem fun {a b} ha hb h => ?_
  have ha := (List.mem_filter.1 ha).2
  have hb := (List.mem_filter.1 hb).2
  simp only [decide_eq_true_eq] at ha hb
  rcases Edge.lt_iff.1 h with h | h
  · rw [ha, hb] at h
    exact absurd h (StrictOrder.irrefl n)
  · exact h.2

theorem length_successors (g : Graph) (n : GroupId) :
    (g.successors n).length = (g.edges.toList.filter (·.source = n)).length := List.length_map _

theorem length_edges (g : Graph) : g.edges.toList.length = g.edgeCount := List.length_map _

theorem Adj.mem_nodes {g : Graph} {a b : GroupId} (h : g.Adj a b) : a ∈ g.nodes ∧ b ∈ g.nodes :=
  (g.closed _ h).2

theorem Adj.ne {g : Graph} {a b : GroupId} (h : g.Adj a b) : a ≠ b := (g.closed _ h).1

end Graph

end Layering
