import Layering.Classification
import Mathlib.Data.List.Basic

/-!
# Invalid rules

Compiling stops at the first invalid glob, wherever it stands in a predicate: in the
order of `PathPredicate.globs`, and rule by rule, the layer rules first
(`RuleSet.fails_compile`). What fails, and with what, is said by `Fails`, which goes
through a sequence of steps.
-/

namespace Layering

/-! ## Failures -/

/-- A computation fails with the error that is given, and only if one is. -/
def Fails {ε α : Type} (x : Except ε α) (o : Option ε) : Prop := ∀ e, x = .error e ↔ o = some e

namespace Fails

variable {ε α β : Type} {x : Except ε α} {o o' : Option ε}

theorem ok (a : α) : Fails (.ok a : Except ε α) none := fun _ => by simp

theorem error (e : ε) : Fails (.error e : Except ε α) (some e) := fun _ => by simp

/-- There is a result if there is no error. -/
theorem exists_ok_iff (h : Fails x o) : (∃ a, x = .ok a) ↔ o = none := by
  rw [Option.eq_none_iff_forall_ne_some]
  constructor
  · rintro ⟨a, rfl⟩ e he
    have herror := (h e).2 he
    cases herror
  · intro hnone
    cases x with
    | error e => exact absurd ((h e).1 rfl) (hnone e)
    | ok a => exact ⟨a, rfl⟩

theorem map (f : α → β) (h : Fails x o) : Fails (x.map f) o := fun e => by
  rw [← h e]
  cases x <;> simp [Except.map]

/-- Of two steps, the second fails only after the first has not. -/
theorem bind {f : α → Except ε β} (h : Fails x o) (hf : ∀ a, Fails (f a) o') :
    Fails (x >>= f) (o.or o') := by
  intro e
  cases x with
  | error d =>
    obtain rfl : o = some d := (h d).1 rfl
    show (Except.error d : Except ε β) = .error e ↔ some d = some e
    simp
  | ok a =>
    obtain rfl : o = none := h.exists_ok_iff.1 ⟨a, rfl⟩
    exact hf a e

end Fails

/-! ## Globs -/

/-- The glob of a rule is valid. -/
def ValidGlob (pattern : String) : Prop := ∃ g, Glob.parse ruleGlobs pattern = .ok g

/-- What is wrong with a glob. -/
def globError? (pattern : String) : Option ConfigError :=
  match Glob.parse ruleGlobs pattern with
  | .ok _ => none
  | .error e => some (.invalidGlob pattern e)

theorem globError?_eq_none_iff {p : String} : globError? p = none ↔ ValidGlob p := by
  unfold globError? ValidGlob
  cases Glob.parse ruleGlobs p <;> simp

theorem globError?_eq_some_iff {p : String} {e : ConfigError} : globError? p = some e ↔
    ∃ cause, Glob.parse ruleGlobs p = .error cause ∧ e = .invalidGlob p cause := by
  unfold globError?
  cases Glob.parse ruleGlobs p <;> simp [eq_comm]

/-- What is wrong with the first invalid glob of a list. -/
def firstGlobError? (globs : List String) : Option ConfigError := globs.findSome? globError?

theorem firstGlobError?_append (ps qs : List String) :
    firstGlobError? (ps ++ qs) = (firstGlobError? ps).or (firstGlobError? qs) :=
  List.findSome?_append

theorem firstGlobError?_eq_none_iff {globs : List String} :
    firstGlobError? globs = none ↔ ∀ p ∈ globs, ValidGlob p := by
  simp only [firstGlobError?, List.findSome?_eq_none_iff, globError?_eq_none_iff]

theorem firstGlobError?_eq_some_iff {globs : List String} {e : ConfigError} :
    firstGlobError? globs = some e ↔ ∃ pre p post cause, globs = pre ++ p :: post ∧
      (∀ q ∈ pre, ValidGlob q) ∧ Glob.parse ruleGlobs p = .error cause ∧ e = .invalidGlob p cause := by
  rw [firstGlobError?, List.findSome?_eq_some_iff]
  simp only [globError?_eq_some_iff, globError?_eq_none_iff]
  constructor
  · rintro ⟨pre, p, post, hglobs, ⟨cause, hp, he⟩, hpre⟩
    exact ⟨pre, p, post, cause, hglobs, hpre, hp, he⟩
  · rintro ⟨pre, p, post, cause, hglobs, hpre, hp, he⟩
    exact ⟨pre, p, post, hglobs, ⟨cause, hp, he⟩, hpre⟩

theorem fails_compileGlob (p : String) : Fails (compileGlob p) (globError? p) := by
  unfold compileGlob globError?
  cases Glob.parse ruleGlobs p with
  | ok g => exact .ok g
  | error e => exact .error _

/-! ## Predicates and rules -/

mutual

/-- The globs of a predicate in the order of the text. -/
def PathPredicate.globs : PathPredicate → List String
  | .contains _ => []
  | .glob pattern => [pattern]
  | .all ps => globsOfAll ps
  | .any ps => globsOfAll ps
  | .not p => p.globs

/-- The globs of some predicates in the order of the text. -/
def globsOfAll : List PathPredicate → List String
  | [] => []
  | p :: ps => p.globs ++ globsOfAll ps

end

mutual

/-- A predicate fails to compile at its first invalid glob. -/
theorem PathPredicate.fails_compile : (p : PathPredicate) →
    Fails p.compile (firstGlobError? p.globs)
  | .contains needles => by
    rw [PathPredicate.compile, PathPredicate.globs]
    exact .ok _
  | .glob pattern => by
    have hfirst : firstGlobError? [pattern] = globError? pattern := by
      rw [firstGlobError?, List.findSome?_singleton]
    rw [PathPredicate.compile, PathPredicate.globs, hfirst]
    exact (fails_compileGlob pattern).map _
  | .all ps => by
    rw [PathPredicate.compile, PathPredicate.globs]
    exact (fails_compileAll ps).map _
  | .any ps => by
    rw [PathPredicate.compile, PathPredicate.globs]
    exact (fails_compileAll ps).map _
  | .not p => by
    rw [PathPredicate.compile, PathPredicate.globs]
    exact p.fails_compile.map _

/-- Predicates are compiled one after the other. -/
theorem fails_compileAll : (ps : List PathPredicate) →
    Fails (compileAll ps) (firstGlobError? (globsOfAll ps))
  | [] => by
    rw [compileAll, globsOfAll]
    exact .ok _
  | p :: ps => by
    rw [compileAll, globsOfAll, firstGlobError?_append]
    exact p.fails_compile.bind fun m => (fails_compileAll ps).map (m :: ·)

end

/-- The globs of some rules in order. -/
def globsOfRules {α : Type} (rules : List (Rule α)) : List String :=
  rules.flatMap fun r => r.condition.globs

/-- All globs of a rule set, those of the layer rules first. -/
def RuleSet.globs (rules : RuleSet) : List String :=
  globsOfRules rules.layerRules ++ globsOfRules rules.responsibilityRules

theorem fails_compileRules {α : Type} (rules : List (Rule α)) :
    Fails (compileRules rules) (firstGlobError? (globsOfRules rules)) := by
  induction rules with
  | nil => exact .ok _
  | cons r rules ih =>
    rw [compileRules, globsOfRules, List.flatMap_cons, firstGlobError?_append]
    exact r.condition.fails_compile.bind fun m => ih.map ((m, r.outcome) :: ·)

/-- A rule set fails to compile at its first invalid glob. -/
theorem RuleSet.fails_compile (rules : RuleSet) :
    Fails rules.compile (firstGlobError? rules.globs) := by
  rw [RuleSet.compile, RuleSet.globs, firstGlobError?_append]
  refine (fails_compileRules rules.layerRules).bind fun layers => ?_
  exact (fails_compileRules rules.responsibilityRules).map _

end Layering
