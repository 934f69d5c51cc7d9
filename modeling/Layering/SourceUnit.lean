import Layering.Path

/-!
# Source units

What is known of one source file: its path, the symbols it defines and the
references it makes, as they stand in its text.
-/

namespace Layering

/-- A unit is known by its place in the corpus. -/
abbrev UnitId := Nat

/-- A symbol that a unit defines. -/
structure Symbol where
  name : String
  isPrivate : Bool
  deriving DecidableEq

/-- The facts about one source file. The path is the unit's key in a corpus. A
unit is `externallyCalled` if it registers an entry point with a foreign
runtime. -/
structure SourceUnit where
  path : String
  symbols : List Symbol
  references : List String
  externallyCalled : Bool
  deriving DecidableEq

namespace SourceUnit

/-- A unit of which only the path and the references are known. -/
def ofReferences (path : String) (references : List String) : SourceUnit :=
  ⟨path, [], references, false⟩

/-- The last component of the path. -/
def basename (u : SourceUnit) : String := Path.basename u.path

/-- The extension in lower case. -/
def extension? (u : SourceUnit) : Option String :=
  (Path.extension? u.path).map fun e => String.ofList (e.toList.map Char.toLower)

end SourceUnit

end Layering
