/-!
# General categories

The thirty general categories of Unicode, by their two-letter names.
-/

namespace Layering.Text

/-- A general category of characters. -/
inductive Category
  | lu | ll | lt | lm | lo
  | mn | mc | me
  | nd | nl | no
  | pc | pd | ps | pe | pi | pf | po
  | sm | sc | sk | so
  | zs | zl | zp
  | cc | cf | co | cs | cn
  deriving DecidableEq

namespace Category

/-- The category at `n` of runs that start at ascending places: that of the
last run that starts at or before it. -/
def lookup (n : Nat) : Category → List (Nat × Category) → Category
  | k, [] => k
  | k, (start, k') :: runs => if n < start then k else lookup n k' runs

/-- Letters. -/
def isLetter : Category → Bool
  | lu | ll | lt | lm | lo => true
  | _ => false

/-- Marks. -/
def isMark : Category → Bool
  | mn | mc | me => true
  | _ => false

/-- Numbers. -/
def isNumber : Category → Bool
  | nd | nl | no => true
  | _ => false

/-- Punctuation. -/
def isPunctuation : Category → Bool
  | pc | pd | ps | pe | pi | pf | po => true
  | _ => false

/-- Symbols. -/
def isSymbol : Category → Bool
  | sm | sc | sk | so => true
  | _ => false

/-- Separators. -/
def isSeparator : Category → Bool
  | zs | zl | zp => true
  | _ => false

/-- Controls, formats, private and unassigned characters. -/
def isOther : Category → Bool
  | cc | cf | co | cs | cn => true
  | _ => false

end Category

/-- Whether a number lies in one of some closed ranges. -/
def inRanges (n : Nat) (ranges : List (Nat × Nat)) : Bool :=
  ranges.any fun r => r.1 ≤ n && n ≤ r.2

end Layering.Text
