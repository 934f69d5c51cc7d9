import Layering.Glob.Basic
import Layering.Path
import Layering.Policy
import Layering.Rules.Standard
import Layering.Text.Quoted
import Layering.Text.Search

/-!
# Configurations

Everything an analysis needs besides the corpus: rules, policy, how references
are resolved, and how deep includes are followed.
-/

namespace Layering

/-- What happens to a reference that fits several units. -/
inductive ResolutionMode
  /-- The earliest unit in the corpus is meant. -/
  | firstMatch
  /-- The reference stays unresolved. -/
  | strict
  deriving DecidableEq

/-- How references are resolved and which units are headers. -/
structure ResolutionConfig where
  mode : ResolutionMode
  /-- Extensions of units that are included rather than compiled. -/
  headerExtensions : List String
  /-- Extensions of the units that a header can be the companion of, the preferred
  one first. -/
  sourceExtensions : List String
  /-- A header is put into the group of the unit it is the companion of. -/
  pairCompanionHeaders : Bool
  /-- Directories whose contents are also known by the path below them. -/
  includeRoots : List String
  deriving DecidableEq

namespace ResolutionConfig

/-- The built-in configuration. -/
def standard : ResolutionConfig where
  mode := .firstMatch
  headerExtensions := ["h", "hh", "hpp", "hxx", "inc"]
  sourceExtensions := ["c", "cc", "cpp", "cxx"]
  pairCompanionHeaders := true
  includeRoots := ["include"]

/-- Whether a path has one of some extensions. -/
def hasExtension (path : String) (extensions : List String) : Bool :=
  match Path.extension? path with
  | some e => extensions.any (Text.eqIgnoreAsciiCase · e)
  | none => false

/-- Whether the unit at a path is included rather than compiled. -/
def isHeader (c : ResolutionConfig) (path : String) : Bool := hasExtension path c.headerExtensions

/-- Whether the unit at a path is compiled. -/
def isSource (c : ResolutionConfig) (path : String) : Bool := hasExtension path c.sourceExtensions

end ResolutionConfig

/-- The configuration of an analysis. -/
structure AnalysisConfig where
  rules : RuleSet
  layers : LayerPolicy
  resolution : ResolutionConfig
  /-- How many headers deep the includes of a unit are followed. -/
  transitiveDepthLimit : UInt64

/-- The built-in configuration. -/
def AnalysisConfig.standard : AnalysisConfig := ⟨.standard, .standard, .standard, 16⟩

/-- What is wrong with a configuration. -/
inductive ConfigError
  | invalidGlob (pattern : String) (cause : Glob.GlobError)
  | repeatedLayer (layer : Layer)
  | noHeaderExtensions
  deriving DecidableEq

/-- The text of what is wrong with a pattern. -/
def Glob.describeError (pattern : String) (e : Glob.GlobError) : String :=
  "error parsing glob '" ++ pattern ++ "': " ++ e.message

/-- The text of an error. -/
def ConfigError.message : ConfigError → String
  | invalidGlob p e => "invalid glob pattern " ++ Text.quoted p ++ ": " ++ Glob.describeError p e
  | repeatedLayer l =>
    "invalid configuration: layer " ++ l.name ++ " appears twice in layers.admission_order"
  | noHeaderExtensions => "invalid configuration: resolution.header_extensions must not be empty"

/-- Refuses a policy that names a layer twice. -/
def LayerPolicy.validate (p : LayerPolicy) : Except ConfigError Unit :=
  match p.repeatedLayer? with
  | some l => .error (.repeatedLayer l)
  | none => .ok ()

/-- Refuses a configuration whose policy is invalid or that knows no headers. -/
def AnalysisConfig.validate (c : AnalysisConfig) : Except ConfigError Unit := do
  c.layers.validate
  if c.resolution.headerExtensions.isEmpty then throw .noHeaderExtensions

end Layering
