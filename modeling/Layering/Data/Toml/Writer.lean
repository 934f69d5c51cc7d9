import Layering.Data.Json.Writer
import Layering.Data.Toml.Text

/-!
# Writing TOML

A table is written under its header, first the keys with plain values and then the
tables inside it. Lists of tables have a header for each item, and other lists of
two items or more one line for each item.
-/

namespace Layering.Data.Toml

/-- A string: between single quotes if that saves escapes. -/
def writeText (s : String) : String :=
  let l := s.toList
  let special := fun c => c == '"' || c == '\\'
  if l.any special && l.all fun c => isPlain c && c != '\'' then "'" ++ s ++ "'"
  else String.ofList (Json.writeString s)

/-- A key, without quotes if possible. -/
def writeKey (s : String) : String :=
  if !s.isEmpty && s.toList.all isKeyChar then s else writeText s

/-- The text of a key node. -/
def keyText : Node → String
  | .text s => s
  | _ => ""

/-- A list of written items. -/
def writeList : List String → String
  | [] => "[]"
  | [x] => "[" ++ x ++ "]"
  | xs => "[\n" ++ String.join (xs.map fun x => "    " ++ x ++ ",\n") ++ "]"

mutual

/-- A value within a line. -/
def writeValue : Node → String
  | .text s => writeText s
  | .plain s => writeText s
  | .int n => toString n
  | .bool b => if b then "true" else "false"
  | .float t => t
  | .list items _ => writeList (writeValues items)
  | .map [] _ => "\x7b\x7d"
  | .map es _ => "\x7b " ++ ", ".intercalate (writePairs es) ++ " \x7d"
  | .tagged _ n => writeValue n
  | _ => ""

/-- Values one by one. -/
def writeValues : List Node → List String
  | [] => []
  | n :: l => writeValue n :: writeValues l

/-- Keys with their values. -/
def writePairs : List (Node × Node) → List String
  | [] => []
  | (k, n) :: l => (writeKey (keyText k) ++ " = " ++ writeValue n) :: writePairs l

end

/-- Whether a node is a table. -/
def isTable : Node → Bool
  | .map _ _ => true
  | _ => false

/-- Whether a node is a list of tables. -/
def isTableList : Node → Bool
  | .list items _ => !items.isEmpty && items.all isTable
  | _ => false

/-- The lines of the keys with plain values. -/
def valueLines : List (Node × Node) → List String
  | [] => []
  | (k, n) :: es =>
    if isTable n || isTableList n then valueLines es
    else (writeKey (keyText k) ++ " = " ++ writeValue n ++ "\n") :: valueLines es

/-- The path of a header. -/
def headerPath (path : List String) : String := ".".intercalate (path.map writeKey)

mutual

/-- The blocks of what a key names: of a table its own, which only a table that
holds nothing but tables can do without, and those of the tables inside it; of a
list of tables those of all its items. -/
def blocks (path : List String) : Node → List String
  | .map es _ =>
    let lines := valueLines es
    let own := "[" ++ headerPath path ++ "]\n" ++ String.join lines
    (if lines.isEmpty && !es.isEmpty then [] else [own]) ++ innerBlocks path es
  | .list items _ => if items.all isTable then itemBlocks path items else []
  | _ => []

/-- The blocks of the tables among some entries. -/
def innerBlocks (path : List String) : List (Node × Node) → List String
  | [] => []
  | (k, n) :: es => blocks (path ++ [keyText k]) n ++ innerBlocks path es

/-- The blocks of the items of a list of tables. -/
def itemBlocks (path : List String) : List Node → List String
  | [] => []
  | n :: l => itemBlock path n ++ itemBlocks path l

/-- The blocks of an item of a list of tables. -/
def itemBlock (path : List String) : Node → List String
  | .map es _ =>
    ("[[" ++ headerPath path ++ "]]\n" ++ String.join (valueLines es)) :: innerBlocks path es
  | _ => []

end

/-- A document. -/
def write (n : Node) : String :=
  match n with
  | .map es _ =>
    let lines := valueLines es
    "\n".intercalate ((if lines.isEmpty then [] else [String.join lines]) ++ innerBlocks [] es)
  | _ => ""

end Layering.Data.Toml
