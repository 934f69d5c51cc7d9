import Layering.Data.Yaml.Glyph

/-!
# Block scalars

A block scalar is made of the lines below its header that are indented more than
what is around it. It keeps its line breaks or folds them, and the header says what
becomes of those at its end.
-/

namespace Layering.Data.Yaml

/-- What becomes of the line breaks at the end. -/
inductive Chomping
  | clip
  | strip
  | keep
  deriving DecidableEq

/-- The header of a block scalar: its indentation, relative to what is around it,
if it is given. -/
structure BlockHeader where
  chomping : Chomping
  increment : Option Nat

/-- The chomping that a character stands for. -/
def chomping? : Char → Option Chomping
  | '+' => some .keep
  | '-' => some .strip
  | _ => none

/-- Reads a header after its first character, up to the next line. -/
def readBlockHeader (l : List Glyph) : Option (BlockHeader × List Glyph) := do
  let (signs, rest) := takeChars (fun c => (chomping? c).isSome || c.isDigit) l
  let header ← match signs with
    | [] => some ⟨.clip, none⟩
    | [a] =>
      match chomping? a with
      | some k => some ⟨k, none⟩
      | none => if a = '0' then none else some ⟨.clip, some (a.toNat - '0'.toNat)⟩
    | [a, b] =>
      match chomping? a, chomping? b with
      | some k, none => if b = '0' then none else some ⟨k, some (b.toNat - '0'.toNat)⟩
      | none, some k => if a = '0' then none else some ⟨k, some (a.toNat - '0'.toNat)⟩
      | _, _ => none
    | _ => none
  return (header, ← endLine? rest)

/-- A block scalar that has been read in part: its indentation if it is known, the
deepest indentation so far, its text, last character first, the line break at the
end of the last line and those after it, and whether that line starts with a blank.
A line is under way if it is `open`. -/
structure BlockDraft where
  indent : Option Nat
  deepest : Nat
  done : List Char
  lineEnd : List Char
  breaks : List Char
  indented : Bool
  inLine : Bool

namespace BlockDraft

/-- Starts a line with a character. -/
def startLine (folds : Bool) (d : BlockDraft) (c : Char) : BlockDraft :=
  let joined := folds && d.lineEnd == ['\n'] && !d.indented && !isSpace c
  let gap := if joined then (if d.breaks.isEmpty then [' '] else []) else d.lineEnd
  { d with
    done := c :: (d.breaks ++ (gap ++ d.done))
    lineEnd := []
    breaks := []
    indented := isSpace c
    inLine := true }

/-- The text of a block scalar. -/
def text (d : BlockDraft) (k : Chomping) : String :=
  let done := if k = .strip then d.done else d.lineEnd ++ d.done
  String.ofList (if k = .keep then d.breaks ++ done else done).reverse

end BlockDraft

/-- Reads the lines of a block scalar, indented by `least` columns at least. -/
def readBlockLines (folds : Bool) (least : Nat) :
    BlockDraft → List Glyph → Option (BlockDraft × List Glyph)
  | d, [] => some (d, [])
  | d, g :: l =>
    let c := g.char
    let inside := d.indent.all (g.column < ·)
    if d.inLine then
      if isBreak c then readBlockLines folds least { d with lineEnd := [c], inLine := false } l
      else readBlockLines folds least { d with done := c :: d.done } l
    else if c = ' ' ∧ inside then
      readBlockLines folds least { d with deepest := max d.deepest (g.column + 1) } l
    else if c = '\t' ∧ inside then none
    else if isBreak c then readBlockLines folds least { d with breaks := c :: d.breaks } l
    else
      let indent := d.indent.getD (max d.deepest least)
      if g.column = indent then
        readBlockLines folds least ({ d with indent := some indent }.startLine folds c) l
      else some (d, g :: l)

/-- Reads a block scalar after its first character, where `outer` is the
indentation around it. -/
def readBlock (folds : Bool) (outer : Int) (l : List Glyph) : Option (String × List Glyph) := do
  let (header, l) ← readBlockHeader l
  let base := outer.toNat
  let draft : BlockDraft := ⟨header.increment.map (base + ·), 0, [], [], [], false, false⟩
  let (d, l) ← readBlockLines folds (max (outer + 1).toNat 1) draft l
  return (d.text header.chomping, l)

end Layering.Data.Yaml
