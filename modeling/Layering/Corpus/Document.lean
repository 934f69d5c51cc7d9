import Layering.Corpus
import Layering.Data.RecordField
import Layering.Data.Json.Reader
import Layering.Data.Json.Writer

/-!
# Corpora as documents

A corpus in JSON is the list of its units.
-/

namespace Layering

open Data

/-- Symbols in documents. -/
def Symbol.schema : Schema Symbol where
  name := "Symbol"
  initial := ⟨"", false⟩
  fields := [
    .text "name" true Symbol.name fun x r => { r with name := x },
    .bool "isPrivate" true Symbol.isPrivate fun x r => { r with isPrivate := x }]

/-- Units in documents. Only units that are called from outside say whether they
are. -/
def SourceUnit.schema : Schema SourceUnit where
  name := "SourceUnit"
  initial := ⟨"", [], [], false⟩
  fields := [
    .text "path" true SourceUnit.path fun x r => { r with path := x },
    .list "symbols" true SourceUnit.symbols (fun x r => { r with symbols := x })
      Symbol.schema.write Symbol.schema.read,
    .texts "rawReferences" true SourceUnit.references fun x r => { r with references := x },
    { name := "externallyCalled"
      required := false
      write := fun r => if r.externallyCalled then some (.bool true) else none
      read := fun c room n =>
        (decodeBool c room n).map fun x r => { r with externallyCalled := x } }]

namespace Corpus

/-- Units as a document. -/
def unitsNode (units : List SourceUnit) : Node := .ofList (units.map SourceUnit.schema.write)

/-- A corpus as JSON. -/
def toJson (c : Corpus) : String := Json.pretty (unitsNode c.units)

/-- The units in a JSON text. -/
def unitsOfJson (json : String) : Except CorpusError (List SourceUnit) :=
  match Json.decode (decodeList SourceUnit.schema.read) json with
  | .ok us => .ok us
  | .error e => .error (.malformed e)

/-- The corpus in a JSON text. -/
def ofJson (json : String) : Except CorpusError Corpus := do ofUnits (← unitsOfJson json)

end Corpus

end Layering
