import Layering.Proofs.Name

/-!
# Candidates of references

What a reference means, said of the units alone (`Resolver.resolve_eq_iff_means`):
the names that are gathered for it, and the order in which they are looked up, have
no part in it.

A unit can fit a token in four ways, and the candidates are the units that fit in
the first of these ways in which any unit does. They determine the outcome:

* `Resolver.resolve_eq_unresolved_iff`: without a candidate a reference means
  nothing;
* `Resolver.resolve_eq_resolved_iff`: it means the only candidate, or the earliest
  if that one counts.
-/

namespace Layering

open Reference

/-! ## Fits -/

/-- The ways in which a unit can fit a token. -/
inductive Fit
  | path
  | belowRoot
  | basename
  | part
  deriving DecidableEq

/-- The ways that count before another. -/
def Fit.stronger : Fit → List Fit
  | path => []
  | belowRoot => [path]
  | basename => [path, belowRoot]
  | part => [path, belowRoot, basename]

/-- Whether a unit fits a token: it has that path, that name below an include root, the
same last component, or a name that contains the token or that the token ends with. -/
def SourceUnit.Fits (roots : List String) (token : String) (u : SourceUnit) : Fit → Prop
  | .path => u.path = token
  | .belowRoot => BelowRoot roots u.normalPath token
  | .basename => Path.basename u.normalPath = Path.basename token
  | .part => ∃ n, u.HasName roots n ∧ (token.toList <:+: n.toList ∨ n.toList <:+ token.toList)

/-- A unit is a candidate if no unit fits in a stronger way. -/
def Corpus.IsCandidate (c : Corpus) (roots : List String) (token : String) (i : UnitId) : Prop :=
  ∃ fit u, c.units[i]? = some u ∧ u.Fits roots token fit ∧
    ∀ f ∈ fit.stronger, ∀ v ∈ c.units, ¬ v.Fits roots token f

/-- The candidates in corpus order, each once. -/
structure Corpus.Candidates (c : Corpus) (roots : List String) (token : String)
    (ids : List UnitId) : Prop where
  ascending : ids.Pairwise (· < ·)
  mem_iff : ∀ i, i ∈ ids ↔ c.IsCandidate roots token i

theorem Reference.fits_iff {token n : String} :
    Resolver.fits token n ↔ token.toList <:+: n.toList ∨ n.toList <:+ token.toList := by
  rw [Resolver.fits, Bool.or_eq_true, Text.contains, Text.occurs_iff, Text.endsWith,
    List.isSuffixOf_iff_suffix]

namespace Corpus

variable {c : Corpus} {roots : List String} {token : String} {i : UnitId} {ids ids' : List UnitId}

theorem idsWhere_eq_nil_iff {p : SourceUnit → Bool} : c.idsWhere p = [] ↔ ∀ u ∈ c.units, ¬ p u := by
  rw [List.eq_nil_iff_forall_not_mem]
  constructor
  · intro h u hu hp
    obtain ⟨i, hi⟩ := List.mem_iff_getElem?.1 hu
    exact h i (mem_idsWhere.2 ⟨u, hi, hp⟩)
  · intro h i hi
    obtain ⟨u, hu, hp⟩ := mem_idsWhere.1 hi
    exact h u (List.mem_of_getElem? hu) hp

theorem mem_idsWhereFirst_cons {p : SourceUnit → Bool} {ps : List (SourceUnit → Bool)} :
    i ∈ c.idsWhereFirst (p :: ps) ↔ (∃ u, c.units[i]? = some u ∧ p u) ∨
      ((∀ u ∈ c.units, ¬ p u) ∧ i ∈ c.idsWhereFirst ps) := by
  rw [idsWhereFirst, ← idsWhere_eq_nil_iff, ← mem_idsWhere]
  split
  · next h => simp [h]
  · next h => simp [h]

theorem mem_idsWhereFirst_meanings :
    i ∈ c.idsWhereFirst (Resolver.meanings roots token) ↔ c.IsCandidate roots token i := by
  have hpart : ∀ u : SourceUnit, (u.names roots).any (Resolver.fits token) ↔
      u.Fits roots token .part := fun u => by
    simp only [List.any_eq_true, SourceUnit.mem_names, fits_iff, SourceUnit.Fits]
  have hlast : ∀ u : SourceUnit, Path.basename token = Path.basename u.normalPath ↔
      u.Fits roots token .basename := fun u => eq_comm
  simp only [Resolver.meanings, mem_idsWhereFirst_cons, decide_eq_true_eq, mem_includeNames, hpart,
    hlast]
  constructor
  · rintro (⟨u, hu, h⟩ | ⟨hpath, ⟨u, hu, h⟩ | ⟨hbelow, ⟨u, hu, h⟩ | ⟨hbase, ⟨u, hu, h⟩ | ⟨-, h⟩⟩⟩⟩)
    · exact ⟨.path, u, hu, h, fun f hf => absurd hf List.not_mem_nil⟩
    · exact ⟨.belowRoot, u, hu, h, List.forall_mem_singleton.2 hpath⟩
    · exact ⟨.basename, u, hu, h,
        List.forall_mem_cons.2 ⟨hpath, List.forall_mem_singleton.2 hbelow⟩⟩
    · exact ⟨.part, u, hu, h, List.forall_mem_cons.2 ⟨hpath, List.forall_mem_cons.2 ⟨hbelow,
        List.forall_mem_singleton.2 hbase⟩⟩⟩
    · exact absurd h List.not_mem_nil
  · rintro ⟨fit, u, hu, h, hstronger⟩
    cases fit with
    | path => exact .inl ⟨u, hu, h⟩
    | belowRoot => exact .inr ⟨hstronger .path (by decide), .inl ⟨u, hu, h⟩⟩
    | basename =>
      exact .inr ⟨hstronger .path (by decide), .inr ⟨hstronger .belowRoot (by decide),
        .inl ⟨u, hu, h⟩⟩⟩
    | part =>
      exact .inr ⟨hstronger .path (by decide), .inr ⟨hstronger .belowRoot (by decide),
        .inr ⟨hstronger .basename (by decide), .inl ⟨u, hu, h⟩⟩⟩⟩

/-- The units that satisfy the first condition that any unit satisfies are the
candidates. -/
theorem candidates_idsWhereFirst (c : Corpus) (roots : List String) (token : String) :
    c.Candidates roots token (c.idsWhereFirst (Resolver.meanings roots token)) :=
  ⟨c.ascending_idsWhereFirst _, fun _ => mem_idsWhereFirst_meanings⟩

theorem Candidates.unique (h : c.Candidates roots token ids) (h' : c.Candidates roots token ids') :
    ids = ids' :=
  OrdSet.eq_of_ascending h.ascending h'.ascending fun i => (h.mem_iff i).trans (h'.mem_iff i).symm

end Corpus

/-! ## Meanings -/

/-- What a reference means in a corpus. -/
inductive Corpus.Means (c : Corpus) (config : ResolutionConfig) (reference : String) :
    Resolution → Prop
  /-- Nothing is left of the reference. -/
  | blank (h : normalize reference = "") : Means c config reference .unresolved
  | unknown (h : normalize reference ≠ "")
    (hids : c.Candidates config.includeRoots (normalize reference) []) :
    Means c config reference .unresolved
  | only {id : UnitId} (h : normalize reference ≠ "")
    (hids : c.Candidates config.includeRoots (normalize reference) [id]) :
    Means c config reference (.resolved id)
  | earliest {id : UnitId} {ids : List UnitId} (h : normalize reference ≠ "")
    (hmode : config.mode = .firstMatch)
    (hids : c.Candidates config.includeRoots (normalize reference) (id :: ids)) :
    Means c config reference (.resolved id)
  | ambiguous {ids : List UnitId} (h : normalize reference ≠ "") (hmode : config.mode = .strict)
    (hids : c.Candidates config.includeRoots (normalize reference) ids) (hlen : 2 ≤ ids.length) :
    Means c config reference (.ambiguous ids)

namespace Resolution

variable {mode : ResolutionMode} {i j : UnitId} {ids : List UnitId}

/-- What candidates in corpus order mean. -/
def ofCandidates : ResolutionMode → List UnitId → Resolution
  | _, [] => .unresolved
  | _, [id] => .resolved id
  | .firstMatch, id :: _ => .resolved id
  | .strict, ids => .ambiguous ids

theorem ofCandidates_firstMatch (i : UnitId) (ids : List UnitId) :
    ofCandidates .firstMatch (i :: ids) = .resolved i := by
  cases ids <;> rfl

theorem ofCandidates_strict (hlen : 2 ≤ ids.length) :
    ofCandidates .strict ids = .ambiguous ids := by
  match ids, hlen with
  | _ :: _ :: _, _ => rfl

theorem ofCandidates_eq_unresolved_iff : ofCandidates mode ids = .unresolved ↔ ids = [] := by
  match mode, ids with
  | _, [] => simp [ofCandidates]
  | _, [_] => simp [ofCandidates]
  | .firstMatch, _ :: _ :: _ => simp [ofCandidates]
  | .strict, _ :: _ :: _ => simp [ofCandidates]

theorem ofCandidates_firstMatch_eq_resolved_iff :
    ofCandidates .firstMatch ids = .resolved i ↔ ids.head? = some i := by
  cases ids with
  | nil => simp [ofCandidates]
  | cons a ids => simp [ofCandidates_firstMatch]

theorem ofCandidates_strict_eq_resolved_iff :
    ofCandidates .strict ids = .resolved i ↔ ids = [i] := by
  match ids with
  | [] => simp [ofCandidates]
  | [_] => simp [ofCandidates]
  | _ :: _ :: _ => simp [ofCandidates]

/-- The earliest of candidates in corpus order is the first. -/
theorem head?_eq_some_iff (h : ids.Pairwise (· < ·)) :
    ids.head? = some i ↔ i ∈ ids ∧ ∀ j ∈ ids, j = i ∨ i < j := by
  cases ids with
  | nil => simp
  | cons a ids =>
    have ha := (List.pairwise_cons.1 h).1
    rw [List.head?_cons, Option.some_inj]
    constructor
    · rintro rfl
      refine ⟨List.mem_cons_self .., fun j hj => ?_⟩
      rcases List.mem_cons.1 hj with rfl | hj
      · exact .inl rfl
      · exact .inr (ha j hj)
    · rintro ⟨hi, hle⟩
      rcases List.mem_cons.1 hi with rfl | hi
      · rfl
      · have hlt := ha i hi
        exact (hle a (List.mem_cons_self ..)).resolve_right (Nat.lt_asymm hlt)

theorem eq_singleton_iff (h : ids.Pairwise (· < ·)) : ids = [i] ↔ i ∈ ids ∧ ∀ j ∈ ids, j = i := by
  constructor
  · rintro rfl
    simp
  · rintro ⟨hi, honly⟩
    have hsingleton : [i].Pairwise (· < ·) := List.pairwise_singleton _ _
    refine OrdSet.eq_of_ascending h hsingleton fun j => ?_
    rw [List.mem_singleton]
    exact ⟨honly j, fun hj => hj ▸ hi⟩

/-- Candidates mean one of them if it is the only one, or the earliest and that counts. -/
theorem ofCandidates_eq_resolved_iff (h : ids.Pairwise (· < ·)) :
    ofCandidates mode ids = .resolved i ↔
      i ∈ ids ∧ ∀ j ∈ ids, j = i ∨ (mode = .firstMatch ∧ i < j) := by
  cases mode with
  | firstMatch =>
    rw [ofCandidates_firstMatch_eq_resolved_iff, head?_eq_some_iff h]
    simp only [true_and]
  | strict =>
    rw [ofCandidates_strict_eq_resolved_iff, eq_singleton_iff h]
    simp only [reduceCtorEq, false_and, or_false]

end Resolution

namespace Resolver

variable {r : Resolver} {c : Corpus} {config : ResolutionConfig} {reference : String}
  {i : UnitId} {ids : List UnitId}

theorem pick_ascending (h : ids.Pairwise (· < ·)) : r.pick ids = .ofCandidates r.mode ids := by
  rw [pick, eraseReps_eq_self h]
  rcases ids with _ | ⟨i, _ | ⟨j, ids⟩⟩
  · rfl
  · rfl
  · cases r.mode <;> rfl

theorem resolve_of_blank (h : normalize reference = "") :
    (ofCorpus c config).resolve reference = .unresolved := by
  rw [resolve_ofCorpus, h]
  rfl

/-- The candidates determine what a reference means. -/
theorem resolve_of_candidates (h : normalize reference ≠ "")
    (hids : c.Candidates config.includeRoots (normalize reference) ids) :
    (ofCorpus c config).resolve reference = .ofCandidates config.mode ids := by
  have hempty : ¬ (normalize reference).isEmpty := by rwa [String.isEmpty_iff]
  rw [resolve_ofCorpus, if_neg hempty, ← hids.unique (c.candidates_idsWhereFirst _ _),
    pick_ascending hids.ascending]
  rfl

/-- A reference means nothing if nothing is left of it or no unit is a candidate. -/
theorem resolve_eq_unresolved_iff : (ofCorpus c config).resolve reference = .unresolved ↔
    normalize reference = "" ∨
      ∀ i, ¬ c.IsCandidate config.includeRoots (normalize reference) i := by
  by_cases h : normalize reference = ""
  · exact iff_of_true (resolve_of_blank h) (.inl h)
  · have hids := c.candidates_idsWhereFirst config.includeRoots (normalize reference)
    rw [or_iff_right h, resolve_of_candidates h hids, Resolution.ofCandidates_eq_unresolved_iff,
      List.eq_nil_iff_forall_not_mem]
    exact forall_congr' fun i => not_congr (hids.mem_iff i)

/-- It means a unit if that is a candidate, and no other one is, or only later ones if
the earliest counts. -/
theorem resolve_eq_resolved_iff : (ofCorpus c config).resolve reference = .resolved i ↔
    normalize reference ≠ "" ∧ c.IsCandidate config.includeRoots (normalize reference) i ∧
      ∀ j, c.IsCandidate config.includeRoots (normalize reference) j →
        j = i ∨ (config.mode = .firstMatch ∧ i < j) := by
  by_cases h : normalize reference = ""
  · rw [resolve_of_blank h]
    exact iff_of_false nofun fun hn => hn.1 h
  · have hids := c.candidates_idsWhereFirst config.includeRoots (normalize reference)
    rw [and_iff_right h, resolve_of_candidates h hids,
      Resolution.ofCandidates_eq_resolved_iff hids.ascending]
    simp only [hids.mem_iff]

theorem means_of_candidates (h : normalize reference ≠ "")
    (hids : c.Candidates config.includeRoots (normalize reference) ids) :
    c.Means config reference (.ofCandidates config.mode ids) := by
  match ids, hids with
  | [], hids => exact .unknown h hids
  | [id], hids => exact .only h hids
  | id :: id' :: ids, hids =>
    cases hmode : config.mode with
    | firstMatch => exact .earliest h hmode hids
    | strict => exact .ambiguous h hmode hids (by simp)

/-- What a reference means is determined by the candidates: nothing without one, the
unit that is the only one, and of several the earliest or, in strict mode, all. -/
theorem resolve_eq_iff_means (c : Corpus) (config : ResolutionConfig) (reference : String)
    (m : Resolution) : (ofCorpus c config).resolve reference = m ↔ c.Means config reference m := by
  constructor
  · rintro rfl
    by_cases h : normalize reference = ""
    · rw [resolve_of_blank h]
      exact .blank h
    · have hids := c.candidates_idsWhereFirst config.includeRoots (normalize reference)
      rw [resolve_of_candidates h hids]
      exact means_of_candidates h hids
  · intro hm
    cases hm with
    | blank h => exact resolve_of_blank h
    | unknown h hids => rw [resolve_of_candidates h hids, Resolution.ofCandidates]
    | only h hids => rw [resolve_of_candidates h hids, Resolution.ofCandidates]
    | earliest h hmode hids =>
      rw [resolve_of_candidates h hids, hmode, Resolution.ofCandidates_firstMatch]
    | ambiguous h hmode hids hlen =>
      rw [resolve_of_candidates h hids, hmode, Resolution.ofCandidates_strict hlen]

end Resolver

end Layering
