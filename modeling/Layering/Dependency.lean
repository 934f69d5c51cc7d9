import Layering.Grouping
import Layering.Reference

/-!
# Dependencies

The units that a unit depends on: those that its references mean, and those that
it reaches through the headers among them. Projected onto groups, the
dependencies of units are the weights of a graph.
-/

namespace Layering

/-- Why a reference means no unit. -/
inductive UnresolvedReason
  | notFound
  | ambiguous
  deriving DecidableEq

/-- A reference that means no unit. -/
structure UnresolvedReference where
  unit : String
  token : String
  reason : UnresolvedReason
  candidates : List String
  deriving DecidableEq

/-- The dependencies of every unit by its id. -/
abbrev Dependencies := List (OrdSet UnitId)

/-- The dependencies of a unit. -/
def Dependencies.of (d : Dependencies) (u : UnitId) : OrdSet UnitId := d.getD u .empty

/-! ## Headers -/

/-- What following headers needs to know: a unit, the direct dependencies of all
units, and which of them are headers. -/
structure Closure where
  unit : UnitId
  direct : Dependencies
  headers : List Bool

namespace Closure

/-- Whether a unit is a header. -/
def isHeader (c : Closure) (u : UnitId) : Bool := c.headers.getD u false

/-- The units among some that are headers and not in `visited`, each once. -/
def unvisited (c : Closure) (visited : List UnitId) (us : List UnitId) : List UnitId :=
  (us.filter fun u => c.isHeader u && !visited.contains u).eraseDups

/-- The unit's dependencies that a step reaches: neither itself nor direct. -/
def isNew (c : Closure) (u : UnitId) : Bool := u ≠ c.unit && u ∉ c.direct.of c.unit

/-- What is reached by following headers, level by level, at most `limit` levels
from the headers of the first level on. -/
def follow (c : Closure) : (limit : Nat) → (visited level : List UnitId) → OrdSet UnitId →
    OrdSet UnitId
  | _, _, [], reached => reached
  | 0, _, _ :: _, reached => reached
  | limit + 1, visited, h :: hs, reached =>
    let next := (h :: hs).flatMap fun h => (c.direct.of h).toList
    let reached := (next.filter c.isNew).foldl (fun s u => s.insert u) reached
    let level := c.unvisited visited next
    c.follow limit (level ++ visited) level reached

/-- The units reached through at most `limit` headers in a row that are no direct
dependencies. -/
def transitive (c : Closure) (limit : Nat) : OrdSet UnitId :=
  let level := c.unvisited [c.unit] (c.direct.of c.unit).toList
  c.follow limit (level ++ [c.unit]) level .empty

end Closure

/-! ## Units -/

/-- The direct and the further dependencies of the units of a corpus, and the
references that mean none. -/
structure UnitDependencies where
  direct : Dependencies
  transitive : Dependencies
  unresolved : List UnresolvedReference

namespace UnitDependencies

/-- The direct dependencies of a unit: the other units that its references
mean. -/
def directOf (r : Resolver) (unit : UnitId × SourceUnit) : OrdSet UnitId :=
  .ofList (unit.2.references.filterMap fun token =>
    match r.resolve token with
    | .resolved id => if id = unit.1 then none else some id
    | _ => none)

/-- The references of a unit that mean none. -/
def unresolvedOf (r : Resolver) (u : SourceUnit) : List UnresolvedReference :=
  u.references.filterMap fun token =>
    match r.resolve token with
    | .resolved _ => none
    | .unresolved => some ⟨u.path, token, .notFound, []⟩
    | .ambiguous ids =>
      some ⟨u.path, token, .ambiguous, ids.filterMap fun id => (r.corpus.unit? id).map (·.path)⟩

/-- The dependencies of the units of a corpus. -/
def ofCorpus (r : Resolver) (config : ResolutionConfig) (limit : Nat) : UnitDependencies :=
  let direct := r.corpus.indexed.map (directOf r)
  let headers := r.corpus.units.map fun u => config.isHeader u.path
  { direct
    transitive := (List.range r.corpus.size).map fun u => Closure.transitive ⟨u, direct, headers⟩ limit
    unresolved := r.corpus.units.flatMap (unresolvedOf r) }

/-- All dependencies of a unit, the direct ones first. -/
def all (d : UnitDependencies) (u : UnitId) : List UnitId :=
  (d.direct.of u).toList ++ (d.transitive.of u).toList

/-- The number of direct dependencies of all units. -/
def directCount (d : UnitDependencies) : Nat := (d.direct.flatMap OrdSet.toList).length

/-- The number of further dependencies of all units. -/
def transitiveCount (d : UnitDependencies) : Nat := (d.transitive.flatMap OrdSet.toList).length

/-- The group edges behind the dependencies of a corpus, one for each dependency
of a unit. -/
def groupEdges (d : UnitDependencies) (corpus : Corpus) (g : Grouping) : List Edge :=
  corpus.indexed.flatMap fun u => (d.all u.1).map fun t => ⟨g.groupOf u.1, g.groupOf t⟩

/-- The graph of the groups; an edge weighs the number of dependencies behind
it. -/
def project (d : UnitDependencies) (corpus : Corpus) (g : Grouping) : Graph :=
  (d.groupEdges corpus g).foldl (·.addEdge · 1) (.ofNodes (g.groups.map Group.id))

end UnitDependencies

end Layering
