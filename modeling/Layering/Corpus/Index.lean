import Layering.Corpus
import Layering.Ordered.Map

/-!
# The index of a corpus

Units can be checked and numbered in one pass, which keeps the ids of the units so far by
their paths. A path that already has an id is a defect, so that in the end each path of the
units has the id of its only unit.
-/

namespace Layering

/-- Ids by paths. -/
abbrev PathIndex := OrdMap String UnitId

namespace PathIndex

/-- Puts the next unit into the index of the units before it, of which there are `id`. -/
def enroll (m : PathIndex) (id : UnitId) (u : SourceUnit) : Except CorpusError PathIndex :=
  if u.trimmedPath.isEmpty then .error (.emptyPath id)
  else if (Path.lastComponent u.trimmedPath).isEmpty then .error (.emptyBasename u.path)
  else if u.symbols.any (·.name.isEmpty) then .error (.emptySymbolName u.path)
  else if (m.get? u.path).isSome then .error (.duplicateUnit u.path)
  else .ok (m.insert u.path id)

/-- Puts units into the index of the units before them, of which there are `id`. -/
def extend (m : PathIndex) (id : UnitId) : List SourceUnit → Except CorpusError PathIndex
  | [] => .ok m
  | u :: us => do extend (← enroll m id u) (id + 1) us

/-- The index of units. -/
def ofUnits (us : List SourceUnit) : Except CorpusError PathIndex := extend .empty 0 us

end PathIndex

end Layering
