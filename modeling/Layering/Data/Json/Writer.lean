import Layering.Data.Node

/-!
# Writing JSON

Two layouts: compact, without any blanks, and indented, with two blanks for each
level, one item to a line, and empty containers closed at once.
-/

namespace Layering.Data.Json

/-- A hexadecimal digit. -/
def hexDigit (n : Nat) : Char := "0123456789abcdef".toList.getD n '0'

/-- A character inside a string. -/
def writeChar (c : Char) : List Char :=
  match c with
  | '"' => ['\\', '"']
  | '\\' => ['\\', '\\']
  | '\n' => ['\\', 'n']
  | '\r' => ['\\', 'r']
  | '\t' => ['\\', 't']
  | '\x08' => ['\\', 'b']
  | '\x0c' => ['\\', 'f']
  | c =>
    if c.toNat < 0x20 then ['\\', 'u', '0', '0', hexDigit (c.toNat / 16), hexDigit (c.toNat % 16)]
    else [c]

/-- A string. -/
def writeString (s : String) : List Char := '"' :: (s.toList.flatMap writeChar ++ ['"'])

/-- A node that holds no other. -/
def writeScalar : Node → List Char
  | .bool b => if b then ['t', 'r', 'u', 'e'] else ['f', 'a', 'l', 's', 'e']
  | .int n => (toString n).toList
  | .float t => t.toList
  | .text s => writeString s
  | .plain s => writeString s
  | _ => ['n', 'u', 'l', 'l']

/-- The start of a line at a level. -/
def newline (level : Nat) : List Char := '\n' :: List.replicate (2 * level) ' '

/-- How items are set apart: with line breaks, or not at all. -/
structure Layout where
  indented : Bool

/-- What stands before an item of a container at a level. -/
def Layout.lead (y : Layout) (level : Nat) : List Char := if y.indented then newline level else []

/-- What stands between a key and its value. -/
def Layout.colon (y : Layout) : List Char := if y.indented then [':', ' '] else [':']

mutual

/-- A node at a level. -/
def write (y : Layout) (level : Nat) : Node → List Char
  | .list [] _ => ['[', ']']
  | .list (n :: l) _ =>
    '[' :: (y.lead (level + 1) ++ write y (level + 1) n ++ writeItems y (level + 1) l ++
      y.lead level ++ [']'])
  | .map [] _ => ['{', '}']
  | .map ((k, n) :: l) _ =>
    '{' :: (y.lead (level + 1) ++ writeScalar k ++ y.colon ++ write y (level + 1) n ++
      writeEntries y (level + 1) l ++ y.lead level ++ ['}'])
  | .tagged _ n => write y level n
  | n => writeScalar n

/-- The items after the first. -/
def writeItems (y : Layout) (level : Nat) : List Node → List Char
  | [] => []
  | n :: l => ',' :: (y.lead level ++ write y level n ++ writeItems y level l)

/-- The entries after the first. -/
def writeEntries (y : Layout) (level : Nat) : List (Node × Node) → List Char
  | [] => []
  | (k, n) :: l =>
    ',' :: (y.lead level ++ writeScalar k ++ y.colon ++ write y level n ++ writeEntries y level l)

end

/-- A node without blanks. -/
def compact (n : Node) : String := String.ofList (write ⟨false⟩ 0 n)

/-- A node over several lines. -/
def pretty (n : Node) : String := String.ofList (write ⟨true⟩ 0 n)

end Layering.Data.Json
