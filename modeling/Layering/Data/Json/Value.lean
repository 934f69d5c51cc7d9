import Layering.Data.Node
import Layering.Ordered.Map

/-!
# JSON values read as a whole

A JSON value that is held in memory has the keys of its mappings in ascending
order; of several entries with one key the last counts.
-/

namespace Layering.Data.Json

/-- Entries with text keys in order of the keys, the last of each key. -/
def orderEntries (entries : List (String × Node)) : List (Node × Node) :=
  let m : OrdMap String Node := entries.foldl (fun m e => m.insert e.1 e.2) .empty
  m.entries.map fun e => (.text e.1, e.2)

mutual

/-- A value with the keys of all its mappings in order. -/
def settle : Node → Node
  | .list items whole => .list (settleItems items) whole
  | .map entries whole => .map (orderEntries (settleEntries entries)) whole
  | n => n

/-- Items with the keys of all their mappings in order. -/
def settleItems : List Node → List Node
  | [] => []
  | n :: l => settle n :: settleItems l

/-- Entries with text keys, whose values have their keys in order. -/
def settleEntries : List (Node × Node) → List (String × Node)
  | [] => []
  | (k, n) :: l =>
    match k with
    | .text s => (s, settle n) :: settleEntries l
    | _ => settleEntries l

end

end Layering.Data.Json
