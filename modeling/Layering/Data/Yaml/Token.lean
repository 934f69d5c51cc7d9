import Layering.Data.Scalar
import Layering.Data.Yaml.Glyph
import Layering.Text.Utf8

/-!
# Tokens of YAML

The tokens of a text, and how the small ones are read: names of anchors, tags and
directives. Where blocks start and end is a token of its own.
-/

namespace Layering.Data.Yaml

/-- A token. -/
inductive Token
  | version (major minor : Nat)
  /-- A handle that stands for the start of tags. -/
  | tagHandle (handle start : String)
  | documentStart
  | documentEnd
  | blockSequence
  | blockMapping
  | blockEnd
  | flowSequence
  | flowSequenceEnd
  | flowMapping
  | flowMappingEnd
  | blockEntry
  | flowEntry
  | key
  | value
  | alias (name : String)
  | anchor (name : String)
  | tag (handle suffix : String)
  | scalar (text : String) (plain : Bool)
  deriving DecidableEq

/-- A token and the text after it. -/
abbrev TokenReader := List Glyph → Option (Token × List Glyph)

/-- Reads the name of an anchor or alias. -/
def readAnchorName (l : List Glyph) : Option (String × List Glyph) :=
  let (name, r) := takeChars isNameChar l
  if name.isEmpty then none
  else if startsBlank r || startsWith (fun c => "?:,]\x7d%@`".toList.contains c) r then
    some (String.ofList name, r)
  else none

/-! ## Tags -/

/-- Characters that stand for themselves in tags, or in tags between brackets. -/
def isTagChar (bracketed : Bool) (c : Char) : Bool :=
  isNameChar c || ";/?:@&=+$.!~*'()".toList.contains c ||
    (bracketed && (c == ',' || c == '[' || c == ']'))

/-- The bytes of a tag that is written with escapes, and the text after it. -/
def readTagBytes (bracketed : Bool) : List Glyph → Option (List UInt8 × List Glyph)
  | [] => some ([], [])
  | g :: l =>
    if g.char = '%' then
      match l with
      | a :: b :: l => do
        let n ← Scalar.digits? 16 [a.char, b.char]
        let (bytes, l) ← readTagBytes bracketed l
        return (n.toUInt8 :: bytes, l)
      | _ => none
    else if isTagChar bracketed g.char then do
      let (bytes, l) ← readTagBytes bracketed l
      return (Text.encodeChar g.char ++ bytes, l)
    else some ([], g :: l)

/-- Reads a part of a tag. -/
def readTagText (bracketed : Bool) (l : List Glyph) : Option (String × List Glyph) := do
  let (bytes, l) ← readTagBytes bracketed l
  return (← Text.decode? bytes, l)

/-- Reads the handle of a tag after its exclamation mark; the answer includes the
marks, and says whether there is a second one. -/
def readHandle (l : List Glyph) : List Char × Bool × List Glyph :=
  let (name, r) := takeChars isNameChar l
  match r with
  | g :: r' => if g.char = '!' then ('!' :: name ++ ['!'], true, r') else ('!' :: name, false, r)
  | [] => ('!' :: name, false, [])

/-- Reads a tag after its exclamation mark. -/
def readTag (flow : Bool) (l : List Glyph) : Option (Token × List Glyph) := do
  let (handle, suffix, r) ← match l with
    | g :: r =>
      if g.char = '<' then do
        let (uri, r) ← readTagText true r
        if uri.isEmpty then none
        match r with
        | h :: r => if h.char = '>' then some ("", uri, r) else none
        | [] => none
      else named (g :: r)
    | [] => named []
  if startsBlank r || (flow && startsWith (· == ',') r) then return (.tag handle suffix, r) else none
where
  /-- A tag with a handle or without. -/
  named (l : List Glyph) : Option (String × String × List Glyph) := do
    let (start, closed, r) := readHandle l
    let (text, r) ← readTagText false r
    if closed then
      if text.isEmpty then none
      return (String.ofList start, text, r)
    let suffix := String.ofList (start.drop 1) ++ text
    return if suffix.isEmpty then ("", "!", r) else ("!", suffix, r)

/-! ## Directives -/

/-- Reads a number of at most nine digits. -/
def readVersionPart (l : List Glyph) : Option (Nat × List Glyph) :=
  let (ds, r) := takeChars Char.isDigit l
  if ds.length ≤ 9 then (Scalar.digits? 10 ds).map fun n => (n, r) else none

/-- Reads what follows the name of a directive. -/
def readDirectiveValue (name : String) (l : List Glyph) : Option (Token × List Glyph) :=
  match name with
  | "YAML" => do
    let (major, l) ← readVersionPart (dropSpaces l)
    match l with
    | g :: l =>
      if g.char = '.' then do
        let (minor, l) ← readVersionPart l
        return (.version major minor, l)
      else none
    | [] => none
  | "TAG" => do
    match dropSpaces l with
    | g :: l =>
      if g.char = '!' then do
        let (handle, closed, l) := readHandle l
        if !closed && handle.length > 1 then none
        if !startsWith isSpace l then none
        let (start, l) ← readTagText true (dropSpaces l)
        if start.isEmpty || !startsBlank l then none
        return (.tagHandle (String.ofList handle) start, l)
      else none
    | [] => none
  | _ => none

/-- Reads a directive after its percent sign, up to the next line. -/
def readDirective : TokenReader := fun l => do
  let (name, r) := takeChars isNameChar l
  if name.isEmpty || !startsBlank r then none
  let (t, r) ← readDirectiveValue (String.ofList name) r
  return (t, ← endLine? r)

end Layering.Data.Yaml
