/-!
# Characters and their places

Indentation and line breaks matter in YAML, so every character comes with its
place. All line breaks but two count as line feeds, and a text with a control
character is no document.
-/

namespace Layering.Data.Yaml

/-- A character and its place in the text. -/
structure Glyph where
  char : Char
  line : Nat
  column : Nat
  index : Nat

/-- Blanks within a line. -/
def isSpace (c : Char) : Bool := c == ' ' || c == '\t'

/-- Line breaks. -/
def isBreak (c : Char) : Bool := c == '\n' || c == '\u2028' || c == '\u2029'

/-- Whether a text may hold a character. -/
def isAllowed (c : Char) : Bool :=
  let n := c.toNat
  n == 0x09 || n == 0x0A || n == 0x0D || (0x20 ≤ n && n ≤ 0x7E) || n == 0x85 ||
    (0xA0 ≤ n && n ≤ 0xFFFD && n != 0xFEFF) || 0x10000 ≤ n

/-- A text with line feeds for all line breaks that stand for one. -/
def plainBreaks : List Char → List Char
  | [] => []
  | '\r' :: '\n' :: l => '\n' :: plainBreaks l
  | c :: l => (if c == '\r' || c == '\u0085' then '\n' else c) :: plainBreaks l

/-- Characters with their places, of which the first is given. -/
def placed (line column index : Nat) : List Char → List Glyph
  | [] => []
  | c :: l =>
    ⟨c, line, column, index⟩ ::
      (if isBreak c then placed (line + 1) 0 (index + 1) l else placed line (column + 1) (index + 1) l)

/-- The characters of a text, without a byte order mark in front of it. -/
def glyphs? (s : String) : Option (List Glyph) :=
  let l := match s.toList with
    | '\uFEFF' :: l => l
    | l => l
  if l.all isAllowed then some (placed 0 0 0 (plainBreaks l)) else none

/-- Whether a text starts with a blank or a line break, or is at its end. -/
def startsBlank : List Glyph → Bool
  | [] => true
  | g :: _ => isSpace g.char || isBreak g.char

/-- Whether a text starts with some character. -/
def startsWith (p : Char → Bool) : List Glyph → Bool
  | [] => false
  | g :: _ => p g.char

/-- Whether a text starts with three times a character and then a blank, in the
first column. -/
def startsMark (c : Char) : List Glyph → Bool
  | g :: h :: i :: l =>
    g.column == 0 && g.char == c && h.char == c && i.char == c && startsBlank l
  | _ => false

/-- Whether a text starts with a line that starts or ends a document. -/
def startsBoundary (l : List Glyph) : Bool := startsMark '-' l || startsMark '.' l

/-- The characters of names: letters, digits, dashes and underscores. -/
def isNameChar (c : Char) : Bool := c.isAlphanum || c == '-' || c == '_'

/-- The longest start of a text with characters of a class, and the rest. -/
def takeChars (p : Char → Bool) : List Glyph → List Char × List Glyph
  | [] => ([], [])
  | g :: l =>
    if p g.char then
      let (cs, r) := takeChars p l
      (g.char :: cs, r)
    else ([], g :: l)

/-- A text after its blanks. -/
def dropSpaces (l : List Glyph) : List Glyph := (takeChars isSpace l).2

/-- The text after the end of a line, in front of which there may be blanks and a
comment. -/
def endLine? (l : List Glyph) : Option (List Glyph) :=
  match dropSpaces l with
  | [] => some []
  | g :: l =>
    let r := if g.char == '#' then (takeChars (!isBreak ·) l).2 else g :: l
    match r with
    | [] => some []
    | b :: r => if isBreak b.char then some r else none

end Layering.Data.Yaml
