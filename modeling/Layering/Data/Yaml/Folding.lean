import Layering.Data.Yaml.Glyph

/-!
# Folding

Between the words of a scalar on several lines a single line break counts as a
space, and of several line breaks the first does not count.
-/

namespace Layering.Data.Yaml

/-- What stands between two words: blanks, or from the first line break on the line
breaks, last one first. -/
structure Gap where
  blanks : List Char
  broken : Bool
  first : List Char
  more : List Char

namespace Gap

/-- The gap without anything in it. -/
def empty : Gap := ⟨[], false, [], []⟩

/-- The gap after a line break that does not count. -/
def escaped : Gap := ⟨[], true, [], []⟩

/-- Adds a blank. Blanks at the start of a line do not count. -/
def blank (g : Gap) (c : Char) : Gap := if g.broken then g else { g with blanks := c :: g.blanks }

/-- Adds a line break. -/
def lineBreak (g : Gap) (c : Char) : Gap :=
  if g.broken then { g with more := c :: g.more } else ⟨[], true, [c], []⟩

/-- The text that a gap stands for, last character first. -/
def folded (g : Gap) : List Char :=
  if !g.broken then g.blanks
  else if g.first = ['\n'] then (if g.more.isEmpty then [' '] else g.more)
  else g.more ++ g.first

end Gap

/-- A text, last character first, after a gap if there is one. -/
def afterGap (gap : Option Gap) (done : List Char) : List Char :=
  match gap with
  | some g => g.folded ++ done
  | none => done

end Layering.Data.Yaml
