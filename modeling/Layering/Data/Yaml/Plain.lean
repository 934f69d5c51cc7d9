import Layering.Data.Yaml.Folding

/-!
# Plain scalars

A scalar without quotes ends at a colon before a blank, at a comment, at a line
that is not indented enough, and within brackets at a bracket or a comma.
-/

namespace Layering.Data.Yaml

/-- Characters that have a meaning within brackets. -/
def isFlowIndicator (c : Char) : Bool :=
  c == ',' || c == '[' || c == ']' || c == '{' || c == '}'

/-- A plain scalar: its text, whether it ended after a line break, and what follows
it. -/
structure PlainScalar where
  text : String
  broken : Bool
  rest : List Glyph

/-- Reads a plain scalar. Its lines but the first are indented by `indent` columns
at least, unless it stands within brackets. -/
def readPlain (flow : Bool) (indent : Int) : (gap : Option Gap) → (done : List Char) →
    List Glyph → Option PlainScalar
  | gap, done, [] => some ⟨String.ofList done.reverse, gap.any (·.broken), []⟩
  | gap, done, g :: l =>
    let c := g.char
    let ended : PlainScalar := ⟨String.ofList done.reverse, gap.any (·.broken), g :: l⟩
    if isSpace c then
      if c = '\t' ∧ gap.any (·.broken) ∧ g.column < indent then none
      else readPlain flow indent (some ((gap.getD .empty).blank c)) done l
    else if isBreak c then readPlain flow indent (some ((gap.getD .empty).lineBreak c)) done l
    else if gap.isSome ∧ ((!flow ∧ g.column < indent) ∨ startsBoundary (g :: l) ∨ c = '#') then
      some ended
    else if flow ∧ c = ':' ∧ startsWith (fun c => isFlowIndicator c || c == '?') l then none
    else if (c = ':' ∧ startsBlank l) ∨ (flow ∧ isFlowIndicator c) then some ended
    else readPlain flow indent none (c :: afterGap gap done) l

end Layering.Data.Yaml
