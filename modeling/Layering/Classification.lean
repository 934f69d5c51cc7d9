import Layering.Config.Basic
import Layering.Glob.Match
import Layering.Text.Lowercase

/-!
# Classification

The layer and the responsibility of a path: the outcomes of the first rules that
hold of it, or the defaults. Rules are compiled once, which checks their globs.
-/

namespace Layering

/-- What a path is classified as. -/
structure Classification where
  layer : Layer
  responsibility : String
  deriving DecidableEq

namespace Classification

/-- Classifications are ordered by layer, then by responsibility. -/
instance : LT Classification := ⟨LexLt layer responsibility⟩

instance : DecidableLT Classification := fun a b =>
  inferInstanceAs (Decidable
    (a.layer < b.layer ∨ (a.layer = b.layer ∧ a.responsibility < b.responsibility)))

instance : StrictOrder Classification where
  irrefl := LexLt.irrefl
  trans := LexLt.trans
  trichotomy := LexLt.trichotomy fun ⟨_, _⟩ ⟨_, _⟩ h h' => by cases h; cases h'; rfl

end Classification

/-- A predicate with its texts in lower case and its globs read. -/
inductive Matcher
  | contains (needles : List (List Char))
  | glob (pattern : Glob)
  | all (matchers : List Matcher)
  | any (matchers : List Matcher)
  | not (matcher : Matcher)

/-- A path as predicates see it. -/
structure MatchedPath where
  bytes : List UInt8
  lowered : List Char

/-- The views of a path. -/
def MatchedPath.of (path : String) : MatchedPath :=
  ⟨Text.encode path.toList, Text.lowercase path.toList⟩

/-- How the globs of rules are read: case does not matter, and `*` goes across
slashes. -/
def ruleGlobs : Glob.Options := ⟨true, false, false⟩

/-- Reads the glob of a rule. -/
def compileGlob (pattern : String) : Except ConfigError Glob :=
  match Glob.parse ruleGlobs pattern with
  | .ok g => .ok g
  | .error e => .error (.invalidGlob pattern e)

mutual

/-- Compiles a predicate; the first invalid glob in it is reported. -/
def PathPredicate.compile : PathPredicate → Except ConfigError Matcher
  | .contains needles => .ok (.contains (needles.map fun n => Text.lowercase n.toList))
  | .glob pattern => (compileGlob pattern).map .glob
  | .all ps => (compileAll ps).map .all
  | .any ps => (compileAll ps).map .any
  | .not p => p.compile.map .not

/-- Compiles predicates in order. -/
def compileAll : List PathPredicate → Except ConfigError (List Matcher)
  | [] => .ok []
  | p :: ps => do
    let m ← p.compile
    let ms ← compileAll ps
    return m :: ms

end

mutual

/-- Whether a matcher holds of a path. -/
def Matcher.holds (p : MatchedPath) : Matcher → Bool
  | .contains needles => needles.any fun n => Text.occurs n p.lowered
  | .glob g => g.matchesBytes p.bytes
  | .all ms => allHold p ms
  | .any ms => anyHolds p ms
  | .not m => !m.holds p

/-- Whether all matchers hold of a path. -/
def allHold (p : MatchedPath) : List Matcher → Bool
  | [] => true
  | m :: ms => m.holds p && allHold p ms

/-- Whether one of some matchers holds of a path. -/
def anyHolds (p : MatchedPath) : List Matcher → Bool
  | [] => false
  | m :: ms => m.holds p || anyHolds p ms

end

/-- Compiled rules. -/
structure Classifier where
  layerRules : List (Matcher × Layer)
  responsibilityRules : List (Matcher × String)
  defaultLayer : Layer
  defaultResponsibility : String

/-- Compiles a list of rules in order. -/
def compileRules {α : Type} : List (Rule α) → Except ConfigError (List (Matcher × α))
  | [] => .ok []
  | r :: rs => do
    let m ← r.condition.compile
    let ms ← compileRules rs
    return (m, r.outcome) :: ms

/-- Compiles a rule set. -/
def RuleSet.compile (rules : RuleSet) : Except ConfigError Classifier := do
  let layers ← compileRules rules.layerRules
  let responsibilities ← compileRules rules.responsibilityRules
  return ⟨layers, responsibilities, rules.defaultLayer, rules.defaultResponsibility⟩

/-- The outcome of the first rule that holds of a path. -/
def firstOutcome {α : Type} (p : MatchedPath) (default : α) (rules : List (Matcher × α)) : α :=
  match rules.find? (·.1.holds p) with
  | some r => r.2
  | none => default

/-- The classification of a path. -/
def Classifier.classify (c : Classifier) (path : String) : Classification :=
  let p := MatchedPath.of path
  ⟨firstOutcome p c.defaultLayer c.layerRules,
    firstOutcome p c.defaultResponsibility c.responsibilityRules⟩

end Layering
