import Layering.Layer

/-!
# Classification rules

Rules are data: a predicate on paths and what follows where it holds. Of each
list of rules the first that holds counts.
-/

namespace Layering

/-- A predicate on the path of a unit. Case does not matter. -/
inductive PathPredicate
  /-- The path contains one of the texts. -/
  | contains (needles : List String)
  /-- The path matches the pattern. -/
  | glob (pattern : String)
  | all (predicates : List PathPredicate)
  | any (predicates : List PathPredicate)
  | not (predicate : PathPredicate)

/-- What follows for a path that a predicate holds of. -/
structure Rule (α : Type) where
  condition : PathPredicate
  outcome : α

/-- The rules that give a path its layer and its responsibility. -/
structure RuleSet where
  defaultLayer : Layer
  defaultResponsibility : String
  layerRules : List (Rule Layer)
  responsibilityRules : List (Rule String)

/-- The rules under which every unit gets the defaults. -/
def RuleSet.empty : RuleSet := ⟨.infrastructure, "utilities", [], []⟩

end Layering
