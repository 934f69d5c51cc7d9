import Layering.Layer

/-!
# Layer policies

A policy says which layers may depend on which, by rank: a dependency goes from
an outer layer, with a lower rank, to an inner one, or stays on one rank if the
policy tolerates that for the source. It also orders the layers for admission.
-/

namespace Layering

/-- The rank of each layer; the outermost is 0. -/
structure LayerRanks where
  frameworks : UInt32
  adapters : UInt32
  useCases : UInt32
  entities : UInt32
  infrastructure : UInt32
  codeManagement : UInt32
  deriving DecidableEq

namespace LayerRanks

/-- The ranks of a layered design with utilities beside the adapters and code
loading beside the use cases. -/
def standard : LayerRanks := ⟨0, 1, 2, 3, 1, 2⟩

/-- The rank of a layer. -/
def rank (r : LayerRanks) : Layer → UInt32
  | .frameworks => r.frameworks
  | .adapters => r.adapters
  | .useCases => r.useCases
  | .entities => r.entities
  | .infrastructure => r.infrastructure
  | .codeManagement => r.codeManagement

end LayerRanks

/-- Which dependencies between layers are legal, and in which order the groups of
the layers have their dependencies admitted. -/
structure LayerPolicy where
  ranks : LayerRanks
  /-- Layers whose groups may depend on groups of the same rank. -/
  sameRankLayers : List Layer
  admissionOrder : List Layer
  deriving DecidableEq

namespace LayerPolicy

/-- The built-in policy. -/
def standard : LayerPolicy where
  ranks := .standard
  sameRankLayers := [.infrastructure, .codeManagement]
  admissionOrder := [.frameworks, .adapters, .useCases, .entities, .infrastructure, .codeManagement]

/-- The rank of a layer. -/
def rank (p : LayerPolicy) (l : Layer) : UInt32 := p.ranks.rank l

/-- Whether a group of one layer may depend on a group of another. -/
def isLegal (p : LayerPolicy) (source target : Layer) : Bool :=
  p.rank source < p.rank target || (p.rank source = p.rank target && p.sameRankLayers.contains source)

/-- The layers that the admission order does not name, in their own order. -/
def unlisted (p : LayerPolicy) : List Layer := Layer.all.filter (!p.admissionOrder.contains ·)

/-- The admission order with all layers that it does not name at its end. -/
def effectiveOrder (p : LayerPolicy) : List Layer := p.admissionOrder ++ p.unlisted

/-- The first element of a list that stands in it before. -/
def firstRepeated? (before : List Layer) : List Layer → Option Layer
  | [] => none
  | l :: ls => if l ∈ before then some l else firstRepeated? (before ++ [l]) ls

/-- The first layer that the admission order names a second time. -/
def repeatedLayer? (p : LayerPolicy) : Option Layer := firstRepeated? [] p.admissionOrder

end LayerPolicy

end Layering
