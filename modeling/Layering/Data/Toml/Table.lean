import Layering.Data.Node

/-!
# Tables of a TOML document

A table is defined once, by a header or by dotted keys; what a key names is never
defined again. A header may still define a table that longer headers only implied,
and dotted keys add to what dotted keys made.
-/

namespace Layering.Data.Toml

/-- How a table came to be. -/
inductive Origin
  /-- By a header of its own. -/
  | header
  /-- By the header of a table inside it. -/
  | implied
  /-- By a dotted key. -/
  | dotted
  deriving DecidableEq

/-- What a key names. -/
inductive Item
  | value (n : Node)
  | table (origin : Origin) (entries : List (String × Item))
  /-- Tables that follow one another under headers of the same name, the last one
  first. -/
  | tables (last : List (String × Item)) (before : List (List (String × Item)))

/-- The entries of a table. -/
abbrev Entries := List (String × Item)

namespace Entries

/-- What a key names. -/
def find? (es : Entries) (key : String) : Option Item := List.lookup key es

/-- Names something by a key, in place of what the key named before. -/
def put (key : String) (x : Item) : Entries → Entries
  | [] => [(key, x)]
  | (k, y) :: es => if k = key then (k, x) :: es else (k, y) :: put key x es

/-- Names a new thing by a key. -/
def define? (es : Entries) (key : String) (x : Item) : Option Entries :=
  match es.find? key with
  | some _ => none
  | none => some (es ++ [(key, x)])

/-- Changes the table that a path leads to, where tables that are missing are made
with an origin. Of tables in a row the last one is meant. Dotted keys do not go
into a table with a header. -/
def change? (made : Origin) (f : Origin → Entries → Option Entries) :
    (path : List String) → (own : Origin) → Entries → Option Entries
  | [], own, es => f own es
  | key :: path, _, es =>
    match es.find? key with
    | none => (change? made f path made []).map fun inner => es.put key (.table made inner)
    | some (.value _) => none
    | some (.tables last before) =>
      (change? made f path .header last).map fun last => es.put key (.tables last before)
    | some (.table origin inner) =>
      if made = .dotted ∧ origin = .header then none
      else (change? made f path origin inner).map fun inner => es.put key (.table origin inner)

/-- Adds a value under a dotted key, given by its parts. -/
def addValue? (es : Entries) (key : List String) (n : Node) : Option Entries :=
  let path := key.dropLast
  es.change? .dotted (fun origin inner =>
    if !path.isEmpty && origin != .dotted then none
    else inner.define? (key.getLastD "") (.value n)) path .header

/-- Adds values under dotted keys. -/
def addValues? (es : Entries) : List (List String × Node) → Option Entries
  | [] => some es
  | (key, n) :: rest => do (← es.addValue? key n).addValues? rest

/-- Adds a table with a header. -/
def addTable? (es : Entries) (path : List String) (values : List (List String × Node)) :
    Option Entries :=
  let key := path.getLastD ""
  es.change? .implied (fun _ inner =>
    match inner.find? key with
    | none => do return inner.put key (.table .header (← addValues? [] values))
    | some (.table .implied old) => do
      return inner.put key (.table .header (← addValues? old values))
    | some _ => none) path.dropLast .header

/-- Adds a table to those that have the same header. -/
def addElement? (es : Entries) (path : List String) (values : List (List String × Node)) :
    Option Entries :=
  let key := path.getLastD ""
  es.change? .implied (fun _ inner =>
    match inner.find? key with
    | none => do return inner.put key (.tables (← addValues? [] values) [])
    | some (.tables last before) => do
      return inner.put key (.tables (← addValues? [] values) (last :: before))
    | some _ => none) path.dropLast .header

end Entries

mutual

/-- What a key names, as a node. -/
def Item.node : Item → Node
  | .value n => n
  | .table _ es => .map (entryNodes es) true
  | .tables last before => .ofList (tableNodes before [.map (entryNodes last) true])

/-- Entries with nodes for what the keys name. -/
def entryNodes : List (String × Item) → List (Node × Node)
  | [] => []
  | (k, x) :: es => (.text k, x.node) :: entryNodes es

/-- The nodes of tables in a row, the last one first, in front of those that come
after them. -/
def tableNodes : List (List (String × Item)) → (after : List Node) → List Node
  | [], after => after
  | es :: before, after => tableNodes before (.map (entryNodes es) true :: after)

end

/-- A table as a node. -/
def Entries.node (es : Entries) : Node := .map (entryNodes es) true

end Layering.Data.Toml
