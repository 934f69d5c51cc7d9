import Layering.Data.Yaml.Block
import Layering.Data.Yaml.Plain
import Layering.Data.Yaml.Quoted
import Layering.Data.Yaml.Token

/-!
# From characters to tokens

Whether a scalar is the key of a mapping shows only at the colon after it. Every
place where a key may start is therefore kept in mind, and the token of the key is
put there when the colon comes. Blocks are opened and closed by indentation; within
brackets it does not count.
-/

namespace Layering.Data.Yaml

/-- A place where a key may have started: how many tokens stand before it, and
whether nothing but a key can stand there. -/
structure KeyPlace where
  before : Nat
  required : Bool
  line : Nat
  column : Nat
  index : Nat

/-- A text that has been split into tokens in part: the tokens, last one first, the
rest of the text, the columns of the blocks that are open, the innermost first,
whether a key may start here, and for each pair of brackets, and for what is around
them, where a key may have started. -/
structure Lexer where
  tokens : List Token
  rest : List Glyph
  columns : List Int
  keyAllowed : Bool
  keys : List (Option KeyPlace)

namespace Lexer

/-- The column of the innermost block, or -1 outside all blocks. -/
def indent (x : Lexer) : Int := x.columns.headD (-1)

/-- Whether the text is within brackets. -/
def inFlow (x : Lexer) : Bool := x.keys.length > 1

/-- Adds a token. -/
def push (x : Lexer) (t : Token) : Lexer := { x with tokens := t :: x.tokens }

/-- Adds tokens after the first `before` tokens. -/
def insert (x : Lexer) (before : Nat) (ts : List Token) : Lexer :=
  let later := x.tokens.length - before
  { x with tokens := x.tokens.take later ++ ts.reverse ++ x.tokens.drop later }

/-- Gives up the innermost place of a key; a key that is required must not be
missing. -/
def dropKey (x : Lexer) : Option Lexer :=
  match x.keys with
  | some k :: ks => if k.required then none else some { x with keys := none :: ks }
  | _ => some x

/-- Gives up the places of keys that are on an earlier line or too far away. -/
def dropStale (x : Lexer) (here : Glyph) : Option Lexer := do
  let keys ← x.keys.mapM fun k =>
    match k with
    | some p =>
      if p.line < here.line ∨ p.index + 1024 < here.index then
        (if p.required then none else some none)
      else some k
    | none => some none
  return { x with keys }

/-- Keeps a place in mind if a key may start there. -/
def saveKey (x : Lexer) (here : Glyph) : Option Lexer :=
  if x.keyAllowed then do
    let x ← x.dropKey
    let place : KeyPlace :=
      ⟨x.tokens.length, !x.inFlow && x.indent == here.column, here.line, here.column, here.index⟩
    return { x with keys := some place :: x.keys.tail }
  else some x

/-- Closes the blocks that start right of a column. -/
def closeBlocks (x : Lexer) (column : Int) : Lexer :=
  if x.inFlow then x
  else
    let closed := (x.columns.takeWhile (· > column)).length
    { x with
      tokens := List.replicate closed .blockEnd ++ x.tokens
      columns := x.columns.drop closed }

/-- Whether a block starts at a column. -/
def opensBlock (x : Lexer) (column : Nat) : Bool := !x.inFlow && x.indent < column

/-- Opens a block at a column if there is none. -/
def openBlock (x : Lexer) (column : Nat) (t : Token) : Lexer :=
  if x.opensBlock column then { x.push t with columns := column :: x.columns } else x

/-- Skips blanks, comments and line breaks. After a line break a key may start. -/
def skip (flow : Bool) : (keyAllowed comment : Bool) → List Glyph → Bool × List Glyph
  | k, _, [] => (k, [])
  | k, comment, g :: l =>
    if isBreak g.char then skip flow (k || !flow) false l
    else if comment then skip flow k true l
    else if g.char = ' ' ∨ (g.char = '\t' ∧ (flow ∨ !k)) then skip flow k false l
    else if g.char = '#' then skip flow k true l
    else (k, g :: l)

/-- Adds a token that starts or ends a document, or a directive. -/
def boundary (x : Lexer) (t : Token) (rest : List Glyph) : Option Lexer := do
  let x ← (x.closeBlocks (-1)).dropKey
  return { x.push t with keyAllowed := false, rest }

/-- Adds an opening bracket, which may start a key. -/
def openFlow (x : Lexer) (here : Glyph) (t : Token) (rest : List Glyph) : Option Lexer := do
  let x ← x.saveKey here
  return { x.push t with keys := none :: x.keys, keyAllowed := true, rest }

/-- Adds a closing bracket. -/
def closeFlow (x : Lexer) (t : Token) (rest : List Glyph) : Option Lexer := do
  let x ← x.dropKey
  let keys := if x.inFlow then x.keys.tail else x.keys
  return { x.push t with keys, keyAllowed := false, rest }

/-- Adds the dash of an item. -/
def entry (x : Lexer) (here : Glyph) (rest : List Glyph) : Option Lexer := do
  if !x.inFlow && !x.keyAllowed then none
  let x ← (x.openBlock here.column .blockSequence).dropKey
  return { x.push .blockEntry with keyAllowed := true, rest }

/-- Adds the question mark of a key. -/
def explicitKey (x : Lexer) (here : Glyph) (rest : List Glyph) : Option Lexer := do
  if !x.inFlow && !x.keyAllowed then none
  let x ← (x.openBlock here.column .blockMapping).dropKey
  return { x.push .key with keyAllowed := !x.inFlow, rest }

/-- Adds the colon of a value. -/
def colon (x : Lexer) (here : Glyph) (rest : List Glyph) : Option Lexer :=
  match x.keys with
  | some k :: ks =>
    let opens := x.opensBlock k.column
    let x := x.insert k.before (if opens then [.blockMapping, .key] else [.key])
    some { x.push .value with
      columns := if opens then k.column :: x.columns else x.columns
      keys := none :: ks
      keyAllowed := false
      rest }
  | _ =>
    if !x.inFlow && !x.keyAllowed then none
    else
      let x := x.openBlock here.column .blockMapping
      some { x.push .value with keyAllowed := !x.inFlow, rest }

/-- Adds a token that may start a key. -/
def atom (x : Lexer) (here : Glyph) (read : TokenReader) (l : List Glyph) : Option Lexer := do
  let x ← x.saveKey here
  let (t, rest) ← read l
  return { x.push t with keyAllowed := false, rest }

/-- Adds a block scalar. -/
def block (x : Lexer) (folds : Bool) (l : List Glyph) : Option Lexer := do
  let x ← x.dropKey
  let (s, rest) ← readBlock folds x.indent l
  return { x.push (.scalar s false) with keyAllowed := true, rest }

/-- Adds a plain scalar. After a line break at its end a key may start. -/
def plain (x : Lexer) (here : Glyph) (l : List Glyph) : Option Lexer := do
  let x ← x.saveKey here
  let s ← readPlain x.inFlow (x.indent + 1) none [] l
  return { x.push (.scalar s.text true) with keyAllowed := s.broken, rest := s.rest }

/-- Whether a plain scalar may start with a character before some text. -/
def startsPlain (flow : Bool) (c : Char) (l : List Glyph) : Bool :=
  (!isSpace c && !"-?:,[]\x7b\x7d#&*!|>'\"%@`".toList.contains c) || (c == '-' && !startsWith isSpace l) ||
    (!flow && (c == '?' || c == ':') && !startsBlank l)

/-- Adds the token that starts here, after the blanks. -/
def token (x : Lexer) (g : Glyph) (l : List Glyph) : Option Lexer :=
  let flow := x.inFlow
  let c := g.char
  if g.column = 0 ∧ c = '%' then do
    let (t, rest) ← readDirective l
    x.boundary t rest
  else if startsMark '-' (g :: l) then x.boundary .documentStart (l.drop 2)
  else if startsMark '.' (g :: l) then x.boundary .documentEnd (l.drop 2)
  else if c = '[' then x.openFlow g .flowSequence l
  else if c = '{' then x.openFlow g .flowMapping l
  else if c = ']' then x.closeFlow .flowSequenceEnd l
  else if c = '}' then x.closeFlow .flowMappingEnd l
  else if c = ',' then do
    let x ← x.dropKey
    return { x.push .flowEntry with keyAllowed := true, rest := l }
  else if c = '-' ∧ startsBlank l then x.entry g l
  else if c = '?' ∧ (flow ∨ startsBlank l) then x.explicitKey g l
  else if c = ':' ∧ (flow ∨ startsBlank l) then x.colon g l
  else if c = '*' then x.atom g (fun l => (readAnchorName l).map fun (n, r) => (.alias n, r)) l
  else if c = '&' then x.atom g (fun l => (readAnchorName l).map fun (n, r) => (.anchor n, r)) l
  else if c = '!' then x.atom g (readTag flow) l
  else if c = '|' ∧ !flow then x.block false l
  else if c = '>' ∧ !flow then x.block true l
  else if c = '\'' ∨ c = '"' then
    x.atom g (fun l => (readQuoted c ⟨[], none, none⟩ l).map fun (s, r) => (.scalar s false, r)) l
  else if startsPlain flow c l then x.plain g (g :: l)
  else none

/-- Splits the rest of the text into tokens. Every token takes a character, so the
length of the text is fuel enough. -/
def run : (fuel : Nat) → Lexer → Option (List Token)
  | 0, _ => none
  | fuel + 1, x =>
    match skip x.inFlow x.keyAllowed false x.rest with
    | (_, []) => do
      let x ← (x.closeBlocks (-1)).dropKey
      return x.tokens.reverse
    | (keyAllowed, g :: l) => do
      let x ← { x with keyAllowed, rest := g :: l }.dropStale g
      run fuel (← (x.closeBlocks g.column).token g l)

end Lexer

/-- The tokens of a text. -/
def tokens? (s : String) : Option (List Token) := do
  let l ← glyphs? s
  Lexer.run (l.length + 1) ⟨[], l, [], true, [none]⟩

end Layering.Data.Yaml
