import Layering.Classification
import Layering.Corpus
import Layering.Graph.Basic

/-!
# Grouping

The units of a corpus, put into groups by their classification. A header may
take the classification of its companion, the compiled unit beside it with the
same stem. Groups are numbered in the order of their classifications, so their
ids do not depend on the order of the units.
-/

namespace Layering

/-- The units of one layer and responsibility, with totals over them. -/
structure Group where
  id : GroupId
  layer : Layer
  responsibility : String
  units : OrdSet String
  symbolCount : Nat
  privateSymbolCount : Nat
  externallyCalled : Bool
  deriving DecidableEq

namespace Group

/-- The name of a group: its layer and its responsibility. -/
def name (g : Group) : String := g.layer.name ++ "_" ++ g.responsibility

/-- The group without units of a classification. -/
def empty (id : GroupId) (c : Classification) : Group :=
  ⟨id, c.layer, c.responsibility, .empty, 0, 0, false⟩

/-- The group with a unit added. -/
def add (g : Group) (u : SourceUnit) : Group :=
  { g with
    units := g.units.insert u.path
    symbolCount := g.symbolCount + u.symbols.length
    privateSymbolCount := g.privateSymbolCount + (u.symbols.filter (·.isPrivate)).length
    externallyCalled := g.externallyCalled || u.externallyCalled }

end Group

/-- The companion of the unit at a path: of the compiled units beside a header
with the same stem, the one whose extension comes first in the configuration. -/
def companion? (corpus : Corpus) (config : ResolutionConfig) (path : String) : Option UnitId :=
  if config.isHeader path then
    config.sourceExtensions.findSome? fun e =>
      corpus.idOf? (Path.withExtension (Path.stem path) e)
  else none

/-- Gives a unit the classification of its companion, in the list of the
classifications of all units. -/
def pair (corpus : Corpus) (config : ResolutionConfig) (keys : List Classification)
    (unit : UnitId × SourceUnit) : List Classification :=
  match (companion? corpus config unit.2.path).bind (keys[·]?) with
  | some key => keys.set unit.1 key
  | none => keys

/-- The classifications of the units of a corpus, after pairing. -/
def classifications (corpus : Corpus) (classifier : Classifier) (config : ResolutionConfig) :
    List Classification :=
  let keys := corpus.units.map fun u => classifier.classify u.path
  if config.pairCompanionHeaders then corpus.indexed.foldl (pair corpus config) keys else keys

/-- The groups of a corpus, and the group of each unit. -/
structure Grouping where
  groups : List Group
  unitGroups : List GroupId

namespace Grouping

/-- The members of each classification, in corpus order. -/
def members (corpus : Corpus) (keys : List Classification) :
    OrdMap Classification (List SourceUnit) :=
  (keys.zip corpus.units).foldl (fun m p => m.alter p.1 fun us => us.getD [] ++ [p.2]) .empty

/-- Groups the units of a corpus. -/
def ofCorpus (corpus : Corpus) (classifier : Classifier) (config : ResolutionConfig) : Grouping :=
  let keys := classifications corpus classifier config
  let members := members corpus keys
  { groups := members.entries.zipIdx.map fun (e, id) => e.2.foldl Group.add (.empty id e.1)
    unitGroups := keys.map fun k => members.keys.toList.idxOf k }

/-- The group of an id. -/
def group? (g : Grouping) (id : GroupId) : Option Group := g.groups[id]?

/-- The group of a unit. -/
def groupOf (g : Grouping) (unit : UnitId) : GroupId := g.unitGroups.getD unit 0

/-- The group of a layer and a responsibility. -/
def find? (g : Grouping) (layer : Layer) (responsibility : String) : Option Group :=
  g.groups.find? fun g => g.layer = layer && g.responsibility == responsibility

end Grouping

end Layering
