import Layering.Data.Mismatch
import Layering.SourceUnit
import Layering.Text.Blank
import Layering.Text.Quoted

/-!
# Corpora

A corpus is a list of units with distinct paths that name files, and with no
nameless symbols. The order of the units matters: a unit's place is its id, and
references that fit several units go to the earliest.

* `Corpus.ofUnits_eq_ok_iff`: a list of units is a corpus if it has no defect;
* `Corpus.ofUnits_eq_error_iff`: otherwise its first defect is reported.
-/

namespace Layering

/-- Why units are no corpus. -/
inductive CorpusError
  | emptyPath (index : Nat)
  | emptyBasename (path : String)
  | emptySymbolName (path : String)
  | duplicateUnit (path : String)
  | malformed (cause : Data.Mismatch)
  deriving DecidableEq

/-- The text of an error. -/
def CorpusError.message : CorpusError → String
  | emptyPath i => "unit #" ++ toString i ++ " has an empty path"
  | emptyBasename p => "unit path " ++ Text.quoted p ++ " does not name a file"
  | emptySymbolName p => "unit " ++ p ++ " has a symbol with an empty name"
  | duplicateUnit p => "duplicate unit path: " ++ p
  | malformed c =>
    match c.message? with
    | some m => "malformed corpus: " ++ m
    | none => "malformed corpus"

namespace SourceUnit

/-- The path without blanks at its ends. -/
def trimmedPath (u : SourceUnit) : List Char := Text.trim u.path.toList

/-- What keeps a unit out of a corpus that already holds the units before it. -/
def defect? (before : List SourceUnit) (u : SourceUnit) : Option CorpusError :=
  if u.trimmedPath.isEmpty then some (.emptyPath before.length)
  else if (Path.lastComponent u.trimmedPath).isEmpty then some (.emptyBasename u.path)
  else if u.symbols.any (·.name.isEmpty) then some (.emptySymbolName u.path)
  else if before.any (·.path == u.path) then some (.duplicateUnit u.path)
  else none

end SourceUnit

/-- The first defect in a list of units that follows the units `before`. -/
def firstDefect? (before : List SourceUnit) : List SourceUnit → Option CorpusError
  | [] => none
  | u :: us =>
    match u.defect? before with
    | some e => some e
    | none => firstDefect? (before ++ [u]) us

/-- A list of units without a defect. -/
structure Corpus where
  units : List SourceUnit
  sound : firstDefect? [] units = none

namespace Corpus

theorem eq_of_units {c d : Corpus} (h : c.units = d.units) : c = d := by
  cases c; cases d; cases h; rfl

/-- The corpus without units. -/
def empty : Corpus := ⟨[], rfl⟩

instance : Inhabited Corpus := ⟨empty⟩

/-- The corpus of a list of units. -/
def ofUnits (us : List SourceUnit) : Except CorpusError Corpus :=
  match h : firstDefect? [] us with
  | some e => .error e
  | none => .ok ⟨us, h⟩

theorem ofUnits_eq_ok_iff {us : List SourceUnit} {c : Corpus} :
    ofUnits us = .ok c ↔ c.units = us := by
  rw [ofUnits]
  split
  · next e h =>
    constructor
    · intro q
      cases q
    · intro q
      have := c.sound
      rw [q, h] at this
      cases this
  · next h =>
    constructor
    · intro q
      cases q
      rfl
    · intro q
      exact congrArg Except.ok (eq_of_units q.symm)

theorem ofUnits_eq_error_iff {us : List SourceUnit} {e : CorpusError} :
    ofUnits us = .error e ↔ firstDefect? [] us = some e := by
  rw [ofUnits]
  split
  · next f h => rw [h, Except.error.injEq, Option.some.injEq]
  · next h => simp [h]

/-- The order of units by path. -/
def byPath (a b : SourceUnit) : Bool := a.path ≤ b.path

/-- The corpus of a list of units in the order of their paths. -/
def sorted (us : List SourceUnit) : Except CorpusError Corpus := ofUnits (us.mergeSort byPath)

/-- The number of units. -/
def size (c : Corpus) : Nat := c.units.length

/-- The unit of an id. -/
def unit? (c : Corpus) (id : UnitId) : Option SourceUnit := c.units[id]?

/-- The id of the unit with a path. -/
def idOf? (c : Corpus) (path : String) : Option UnitId := c.units.findIdx? (·.path == path)

/-- Whether a unit has a path. -/
def contains (c : Corpus) (path : String) : Bool := (c.idOf? path).isSome

/-- The units with their ids. -/
def indexed (c : Corpus) : List (UnitId × SourceUnit) := c.units.zipIdx.map fun p => (p.2, p.1)

/-- The symbols of all units, each with its unit. -/
def symbols (c : Corpus) : List (UnitId × Symbol) :=
  c.indexed.flatMap fun p => p.2.symbols.map fun s => (p.1, s)

end Corpus

end Layering
