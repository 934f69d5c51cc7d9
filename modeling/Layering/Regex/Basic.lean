import Layering.Text.Blank
import Layering.Text.Fold

/-!
# Regular expressions

The expressions that patterns stand for. Only the text of one group is ever
asked for, so all groups but the first are mere brackets.
-/

namespace Layering.Regex

/-- A set of characters. -/
abbrev CharSet := Char → Bool

/-- The set of the characters that differ from those of a set only in case. -/
def CharSet.folded (s : CharSet) : CharSet := fun c => (Text.orbit c).any s

/-- A condition on a place in a text. -/
inductive Assertion
  | startText
  | endText
  | startLine
  | endLine
  | startLineReturn
  | endLineReturn
  | boundary (word : CharSet)
  | noBoundary (word : CharSet)
  | startWord (word : CharSet)
  | endWord (word : CharSet)
  | startWordHalf (word : CharSet)
  | endWordHalf (word : CharSet)

/-- Whether an assertion holds between two characters, of which there may be
none. -/
def Assertion.holds (before after : Option Char) : Assertion → Bool
  | startText => before.isNone
  | endText => after.isNone
  | startLine => before.isNone || before == some '\n'
  | endLine => after.isNone || after == some '\n'
  | startLineReturn =>
    before.isNone || before == some '\n' || (before == some '\r' && after != some '\n')
  | endLineReturn =>
    after.isNone || after == some '\r' || (after == some '\n' && before != some '\r')
  | boundary w => before.any w != after.any w
  | noBoundary w => before.any w == after.any w
  | startWord w => !before.any w && after.any w
  | endWord w => before.any w && !after.any w
  | startWordHalf w => !before.any w
  | endWordHalf w => !after.any w

/-- A regular expression. -/
inductive Expr
  | empty
  | set (s : CharSet)
  | assertion (a : Assertion)
  | repetition (e : Expr) (least : Nat) (most : Option Nat) (greedy : Bool)
  /-- The first group of the pattern. -/
  | capture (e : Expr)
  | seq (first second : Expr)
  | alt (first second : Expr)

namespace Expr

/-- The least number of characters in a match. -/
def minLength : Expr → Nat
  | empty => 0
  | set _ => 1
  | assertion _ => 0
  | repetition e least _ _ => least * e.minLength
  | capture e => e.minLength
  | seq a b => a.minLength + b.minLength
  | alt a b => min a.minLength b.minLength

/-- Whether all matches are empty. -/
def isZeroWidth : Expr → Bool
  | empty => true
  | set _ => false
  | assertion _ => true
  | repetition e _ most _ => most == some 0 || e.isZeroWidth
  | capture e => e.isZeroWidth
  | seq a b => a.isZeroWidth && b.isZeroWidth
  | alt a b => a.isZeroWidth && b.isZeroWidth

/-- The number of instructions of the program of an expression. -/
def size : Expr → Nat
  | empty => 1
  | set _ => 1
  | assertion _ => 1
  | repetition e least none _ => (max least 1) * e.size + 2
  | repetition e least (some most) _ => (max least most) * (e.size + 1) + 1
  | capture e => e.size + 2
  | seq a b => a.size + b.size
  | alt a b => a.size + b.size + 1

/-- Repeats an expression; what matches only the empty text is tried once at
most. -/
def repeated (e : Expr) (least : Nat) (most : Option Nat) (greedy : Bool) : Expr :=
  let (least, most) := if e.isZeroWidth then (min least 1, some (min (most.getD 1) 1)) else (least, most)
  if most = some 0 then empty
  else if least = 1 ∧ most = some 1 then e
  else repetition e least most greedy

end Expr

end Layering.Regex
