import Layering.Text.Category.Basic
import Layering.Text.Class
import Layering.Text.Lowercase.Table

/-!
# Lower case

The full lower case of a text. Most characters are mapped one by one; `İ`
becomes two characters, and a capital sigma depends on its neighbours: at the
end of a word it becomes `ς`.
-/

namespace Layering.Text

/-- The target of `n` in a run, if the run holds `n`. -/
def CaseRun.target? (r : CaseRun) (n : Nat) : Option Nat :=
  if r.first ≤ n && n ≤ r.last && (n - r.first) % r.step == 0 then some (r.target + (n - r.first))
  else none

/-- The lower case of a character that has a single-character one, else the
character. -/
def lowerChar (c : Char) : Char :=
  if c.toNat < 0x80 then c.toLower
  else
    match lowercaseRuns.findSome? (·.target? c.toNat) with
    | some n => Char.ofNat n
    | none => c

/-- Cased characters that are no cased letters. -/
def otherCased : List (Nat × Nat) := [
  (0xaa, 0xaa), (0xba, 0xba), (0x2b0, 0x2b8), (0x2c0, 0x2c1), (0x2e0, 0x2e4), (0x345, 0x345),
  (0x37a, 0x37a), (0x10fc, 0x10fc), (0x1d2c, 0x1d6a), (0x1d78, 0x1d78), (0x1d9b, 0x1dbf),
  (0x2071, 0x2071), (0x207f, 0x207f), (0x2090, 0x209c), (0x2160, 0x217f), (0x24b6, 0x24e9),
  (0x2c7c, 0x2c7d), (0xa69c, 0xa69d), (0xa770, 0xa770), (0xa7f1, 0xa7f4), (0xa7f8, 0xa7f9),
  (0xab5c, 0xab5f), (0xab69, 0xab69), (0x10780, 0x10780), (0x10783, 0x10785), (0x10787, 0x107b0),
  (0x107b2, 0x107ba), (0x1e030, 0x1e06d), (0x1f130, 0x1f149), (0x1f150, 0x1f169),
  (0x1f170, 0x1f189)]

/-- Characters with a case. -/
def isCased (c : Char) : Bool :=
  let k := category c
  k == .lu || k == .ll || k == .lt || inRanges c.toNat otherCased

/-- Punctuation that may stand inside a word. -/
def midWord : List (Nat × Nat) := [
  (0x27, 0x27), (0x2e, 0x2e), (0x3a, 0x3a), (0xb7, 0xb7), (0x387, 0x387), (0x55f, 0x55f),
  (0x5f4, 0x5f4), (0x2018, 0x2019), (0x2024, 0x2024), (0x2027, 0x2027), (0xfe13, 0xfe13),
  (0xfe52, 0xfe52), (0xfe55, 0xfe55), (0xff07, 0xff07), (0xff0e, 0xff0e), (0xff1a, 0xff1a)]

/-- Characters that do not count when the neighbours of a sigma are looked at. -/
def isCaseIgnorable (c : Char) : Bool :=
  let k := category c
  k == .mn || k == .me || k == .cf || k == .lm || k == .sk || inRanges c.toNat midWord

/-- Whether the first character that counts is cased. -/
def casedNext (l : List Char) : Bool :=
  match l.dropWhile isCaseIgnorable with
  | [] => false
  | c :: _ => isCased c

/-- The lower case of a text, where `before` is what stands in front of it, last
character first. -/
def lowerAfter (before : List Char) : List Char → List Char
  | [] => []
  | c :: l =>
    (if c = 'Σ' then (if casedNext before && !casedNext l then ['ς'] else ['σ'])
      else if c = 'İ' then ['i', '\u0307']
      else [lowerChar c]) ++ lowerAfter (c :: before) l

/-- The lower case of a text. -/
def lowercase (l : List Char) : List Char := lowerAfter [] l

end Layering.Text
