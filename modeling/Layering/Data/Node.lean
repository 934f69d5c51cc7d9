import Layering.Data.Mismatch
import Layering.Text.Quoted

/-!
# Document trees

What a document in one of the notations holds, before it is read as a value of
some type. A text that breaks off still has a tree: the part before the break,
with the containers that were open marked as not whole, so that a reader meets
the mismatches in the order of the text.
-/

namespace Layering.Data

/-- A node of a document. -/
inductive Node
  | null
  | bool (b : Bool)
  | int (n : Int)
  /-- A number with a fraction or an exponent, by its shortest text. -/
  | float (text : String)
  | text (s : String)
  /-- A scalar without quotes, in a notation that leaves its type to the reader. -/
  | plain (s : String)
  /-- A sequence; not `whole` if the text breaks off after these items. -/
  | list (items : List Node) (whole : Bool)
  /-- A mapping in the order of the text; not `whole` if the text breaks off. -/
  | map (entries : List (Node × Node)) (whole : Bool)
  | tagged (tag : String) (content : Node)
  /-- A well-formed scalar that stands for no value. -/
  | unvalued
  /-- The text is not well formed here. -/
  | broken

namespace Node

/-- The kind and, for scalars, the value of a node in words. -/
def describe : Node → String
  | null => "null"
  | bool b => "boolean `" ++ (if b then "true" else "false") ++ "`"
  | int n => "integer `" ++ toString n ++ "`"
  | float t => "floating point `" ++ t ++ "`"
  | text s => "string " ++ Text.quoted s
  | plain s => "string " ++ Text.quoted s
  | list _ _ => "sequence"
  | map _ _ => "map"
  | tagged _ n => n.describe
  | unvalued => "scalar"
  | broken => "nothing"

/-- The mismatch of a node where something else is expected. -/
def mismatch (n : Node) (expected : String) : Mismatch :=
  match n with
  | broken | unvalued => .malformed
  | _ => .invalidType n.describe expected

/-- A sequence of nodes. -/
def ofList (items : List Node) : Node := .list items true

/-- A mapping with text keys. -/
def ofFields (fields : List (String × Node)) : Node :=
  .map (fields.map fun f => (.text f.1, f.2)) true

/-- A mapping with the entries of two. -/
def splice : Node → Node → Node
  | map es _, map fs _ => .map (es ++ fs) true
  | n, _ => n

end Node

end Layering.Data
