import Layering.Data.Decode
import Layering.Data.Toml.Number
import Layering.Data.Toml.Table
import Layering.Data.Toml.Text

/-!
# Reading TOML

A document is a list of lines: blank ones, comments, headers of tables, and keys
with values. The lines are read first, and the tables are then put together in
their order. No reason is ever shown for why a text is no document.
-/

namespace Layering.Data.Toml

/-- The text after a comment, or the text itself. -/
def dropComment : List Char → List Char
  | '#' :: l => l.dropWhile isPlain
  | l => l

/-- The text after the end of a line, in front of which there may be blanks and a
comment. The text may end with the line. -/
def endLine? (l : List Char) : Option (List Char) :=
  match dropComment (l.dropWhile isSpace) with
  | [] => some []
  | l => afterBreak? l

/-- Drops blanks, line breaks and comments. -/
def skipLines : (comment : Bool) → List Char → List Char
  | _, [] => []
  | _, '\r' :: '\n' :: l => skipLines false l
  | comment, c :: l =>
    if c = '\n' then skipLines false l
    else if comment then (if isPlain c then skipLines true l else c :: l)
    else if isSpace c then skipLines false l
    else if c = '#' then skipLines true l
    else c :: l

/-- How many arrays and tables may stand inside one another. -/
def nestLimit : Nat := 79

mutual

/-- Reads a value with at most `depth` arrays and tables inside one another. -/
def readValue : (fuel depth : Nat) → List Char → Option (Node × List Char)
  | 0, _, _ => none
  | fuel + 1, depth, l =>
    match l with
    | [] => none
    | c :: r =>
      if c = '"' ∨ c = '\'' then (readText l).map fun (s, r) => (.text s, r)
      else if c = '[' then
        match depth with
        | 0 => none
        | depth + 1 => (readItems fuel depth r).map fun (ns, r) => (.ofList ns, r)
      else if c = '{' then
        match depth with
        | 0 => none
        | depth + 1 => do
          let r := r.dropWhile isSpace
          let (values, r) ←
            if r.head? == some '}' then some ([], r.drop 1) else readPairs fuel depth r
          return (Entries.node (← Entries.addValues? [] values), r)
      else if "true".toList.isPrefixOf l then some (.bool true, l.drop 4)
      else if "false".toList.isPrefixOf l then some (.bool false, l.drop 5)
      else readQuantity l

/-- Reads the items of an array up to its closing bracket. -/
def readItems : (fuel depth : Nat) → List Char → Option (List Node × List Char)
  | 0, _, _ => none
  | fuel + 1, depth, l =>
    match skipLines false l with
    | ']' :: r => some ([], r)
    | r => do
      let (n, r) ← readValue fuel depth r
      match skipLines false r with
      | ']' :: r => return ([n], r)
      | ',' :: r => do
        let (ns, r) ← readItems fuel depth r
        return (n :: ns, r)
      | _ => none

/-- Reads the keys and values of a table up to its closing brace. -/
def readPairs : (fuel depth : Nat) → List Char →
    Option (List (List String × Node) × List Char)
  | 0, _, _ => none
  | fuel + 1, depth, l => do
    let (key, l) ← readKey nestLimit l
    match l with
    | '=' :: l => do
      let (n, l) ← readValue fuel depth (l.dropWhile isSpace)
      match l.dropWhile isSpace with
      | '}' :: l => return ([(key, n)], l)
      | ',' :: l => do
        let (rest, l) ← readPairs fuel depth l
        return ((key, n) :: rest, l)
      | _ => none
    | _ => none

end

/-- A line of a document. -/
inductive Line
  | table (key : List String)
  | element (key : List String)
  | value (key : List String) (n : Node)

/-- Reads a header after its opening brackets, and the rest of its line. -/
def readHeader (closing : List Char) (l : List Char) : Option (List String × List Char) := do
  let (key, l) ← readKey nestLimit l
  if closing.isPrefixOf l then return (key, ← endLine? (l.drop closing.length)) else none

/-- Reads a line. -/
def readLine (l : List Char) : Option (Line × List Char) :=
  match l with
  | '[' :: '[' :: r => (readHeader [']', ']'] r).map fun (key, r) => (.element key, r)
  | '[' :: r => (readHeader [']'] r).map fun (key, r) => (.table key, r)
  | l => do
    let (key, r) ← readKey nestLimit l
    let (n, r) ← readValue (2 * l.length + 2) nestLimit ((← afterEquals? r).dropWhile isSpace)
    return (.value key n, ← endLine? r)
where
  /-- The text after an equals sign. -/
  afterEquals? : List Char → Option (List Char)
    | '=' :: l => some l
    | _ => none

/-- Reads all lines. Every line takes a character, so the length of the text is fuel
enough. -/
def readLines : (fuel : Nat) → List Char → Option (List Line)
  | 0, _ => none
  | fuel + 1, l =>
    match l.dropWhile isSpace with
    | [] => some []
    | '#' :: r => do readLines fuel (← endLine? ('#' :: r))
    | c :: r =>
      match afterBreak? (c :: r) with
      | some r => readLines fuel r
      | none => do
        let (line, r) ← readLine (c :: r)
        return line :: (← readLines fuel r)

/-- The values at the start of some lines. -/
def leadingValues : List Line → List (List String × Node)
  | .value key n :: ls => (key, n) :: leadingValues ls
  | _ => []

/-- Adds the tables under the headers among some lines. -/
def addTables (es : Entries) : List Line → Option Entries
  | [] => some es
  | .value _ _ :: ls => addTables es ls
  | .table key :: ls => do addTables (← es.addTable? key (leadingValues ls)) ls
  | .element key :: ls => do addTables (← es.addElement? key (leadingValues ls)) ls

/-- A text without a byte order mark in front of it. -/
def dropMark : List Char → List Char
  | '\uFEFF' :: l => l
  | l => l

/-- The document in a text. -/
def read? (s : String) : Option Node := do
  let l := dropMark s.toList
  let lines ← readLines (l.length + 1) l
  let es ← Entries.addValues? [] (leadingValues lines)
  return (← addTables es lines).node

/-- Reads a value of a type off a TOML text. -/
def decode {α : Type} (d : Decoder α) (s : String) : Except Mismatch α :=
  match read? s with
  | some n => d .toml (s.length + 2) n
  | none => .error .malformed

end Layering.Data.Toml
