import Layering.Regex
import Layering.Scan.Config
import Layering.Source.FunctionHead
import Layering.Source.Include

/-!
# Facts in a source text

What a scan takes from the text of a file: the functions it defines, the headers
it includes and the entry points that patterns find.
-/

namespace Layering

/-- The facts in a source text. -/
structure SourceFacts where
  symbols : List Symbol
  references : List String
  entryPoints : List String
  deriving DecidableEq

/-- What takes facts from texts: a configuration with its patterns compiled. -/
structure Extractor where
  config : ScanConfig
  entryPatterns : List Regex

namespace Extractor

/-- Compiles patterns up to the first that is none, which is the error. -/
def compileAll : List String → Except String (List Regex)
  | [] => .ok []
  | p :: ps =>
    match Regex.ofPattern? p with
    | some r => (compileAll ps).map (r :: ·)
    | none => .error p

/-- The extractor of a configuration. -/
def ofConfig (c : ScanConfig) : Except String Extractor :=
  (compileAll c.entryPatterns).map fun ps => ⟨c, ps⟩

/-- Whether the name of an include directive counts as a reference. -/
def counts (x : Extractor) (name : String) : Bool :=
  !(x.config.skipStandardHeaders && x.config.isStandardHeader name)

/-- The facts in a text. -/
def extract (x : Extractor) (text : String) : SourceFacts where
  symbols := Source.functions text
  references := (Source.includes text).filter x.counts
  entryPoints := x.entryPatterns.flatMap fun r => r.groups text

/-- The unit of a file with some text. -/
def unit (x : Extractor) (path text : String) : SourceUnit :=
  let facts := x.extract text
  ⟨path, facts.symbols, facts.references, !facts.entryPoints.isEmpty⟩

end Extractor

end Layering
