import Layering.Ordered.Set

/-!
# Layers

The six layers a group can belong to, in the order in which groups are numbered.
-/

namespace Layering

/-- An architectural layer. -/
inductive Layer
  | entities
  | useCases
  | adapters
  | frameworks
  | infrastructure
  | codeManagement
  deriving DecidableEq

namespace Layer

/-- All layers in order. -/
def all : List Layer := [entities, useCases, adapters, frameworks, infrastructure, codeManagement]

/-- The place of a layer in the order. -/
def index : Layer → Nat
  | entities => 0
  | useCases => 1
  | adapters => 2
  | frameworks => 3
  | infrastructure => 4
  | codeManagement => 5

/-- The name of a layer. -/
def name : Layer → String
  | entities => "entities"
  | useCases => "use_cases"
  | adapters => "adapters"
  | frameworks => "frameworks"
  | infrastructure => "infrastructure"
  | codeManagement => "code_management"

theorem index_injective {a b : Layer} (h : a.index = b.index) : a = b := by
  cases a <;> cases b <;> first | rfl | exact absurd h (by decide)

theorem mem_all (l : Layer) : l ∈ all := by cases l <;> decide

theorem nodup_all : all.Nodup := by decide

instance : LT Layer := ⟨fun a b => a.index < b.index⟩

instance : DecidableLT Layer := fun a b => inferInstanceAs (Decidable (a.index < b.index))

instance : StrictOrder Layer where
  irrefl a := Nat.lt_irrefl a.index
  trans := Nat.lt_trans
  trichotomy a b := (Nat.lt_trichotomy a.index b.index).imp id (.imp index_injective id)

end Layer

end Layering
