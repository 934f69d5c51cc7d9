import Layering.Regex.Match
import Layering.Regex.Parser

/-!
# Patterns

A pattern that has been read and compiled once, to be looked for in any number of
texts.
-/

namespace Layering

/-- A pattern that has been compiled. -/
structure Regex where
  start : Nat
  program : Regex.Program

namespace Regex

/-- Compiles a pattern. -/
def ofPattern? (pattern : String) : Option Regex := do
  let e ← parse pattern
  let (start, program) := Program.ofExpr e
  return ⟨start, program⟩

/-- The text of the first group in each match of a text, where the match has
one. -/
def groups (r : Regex) (text : String) : List String :=
  let chars := text.toList.toArray
  (findAll r.program r.start chars (2 * chars.size + 2) 0 none).filterMap fun found =>
    found.group.map fun (a, b) => String.ofList (chars.extract a b).toList

end Regex

end Layering
