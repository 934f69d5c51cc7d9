import Layering.Text.Lowercase

/-!
# Simple case folding

Characters that differ only in case have the same fold. Almost always the fold of
a character is its lower case; a few characters share the fold of another letter.
-/

namespace Layering.Text

/-- Characters whose fold is not their lower case, with their fold. -/
def foldExceptions : List (Nat × Nat) := [
  (0x17f, 0x73), (0xb5, 0x3bc), (0x345, 0x3b9), (0x1fbe, 0x3b9), (0x390, 0x1fd3), (0x3d0, 0x3b2),
  (0x3f5, 0x3b5), (0x3d1, 0x3b8), (0x3f0, 0x3ba), (0x3d6, 0x3c0), (0x3f1, 0x3c1), (0x3c2, 0x3c3),
  (0x3d5, 0x3c6), (0x3b0, 0x1fe3), (0x1c80, 0x432), (0x1c81, 0x434), (0x1c82, 0x43e),
  (0x1c83, 0x441), (0x1c84, 0x442), (0x1c85, 0x442), (0x1c86, 0x44a), (0x1c87, 0x463),
  (0x1c88, 0xa64b), (0x1e9b, 0x1e61), (0xfb05, 0xfb06)]

/-- The fold of a character. -/
def fold (c : Char) : Char :=
  match foldExceptions.lookup c.toNat with
  | some n => Char.ofNat n
  | none => lowerChar c

/-- The character that a run maps to `n`, if there is one. -/
def CaseRun.source? (r : CaseRun) (n : Nat) : Option Nat :=
  if r.target ≤ n && n ≤ r.target + (r.last - r.first) && (n - r.target) % r.step == 0 then
    some (r.first + (n - r.target))
  else none

/-- All characters with the fold of a character. -/
def orbit (c : Char) : List Char :=
  let f := fold c
  let exceptions := (foldExceptions.filter (·.2 == f.toNat)).map fun e => Char.ofNat e.1
  let capitals := (lowercaseRuns.filterMap (·.source? f.toNat)).map Char.ofNat
  f :: (exceptions ++ capitals)

end Layering.Text
