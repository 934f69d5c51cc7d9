import Layering.Corpus.Index
import Layering.Proofs.Corpus
import Layering.Proofs.NormalForm

/-!
# What is accepted as a corpus

Units are accepted if each names a file, no symbol is nameless and no path stands twice
(`Acceptable`). Otherwise the first unit that breaks a rule, given the units before it, is
reported, with the first rule that it breaks (`SourceUnit.Reports`). The pass that numbers
the units reports the same, and its index holds the ids of the corpus
(`PathIndex.enroll_eq` for one unit, `PathIndex.extend_eq` for all).

* `Corpus.ofUnits_exact`: what becomes of a list of units.
-/

namespace Layering

variable {us before : List SourceUnit} {u : SourceUnit} {e e' : CorpusError} {m : PathIndex}

/-! ## Rules -/

/-- Every path without the blanks at its ends is a text that does not end with a separator,
every symbol has a name, and no two units have the same path. -/
structure Acceptable (us : List SourceUnit) : Prop where
  path : ∀ u ∈ us, u.trimmedPath ≠ []
  file : ∀ u ∈ us, ∀ c ∈ u.trimmedPath.getLast?, c ≠ '/' ∧ c ≠ '\\'
  symbols : ∀ u ∈ us, ∀ s ∈ u.symbols, s.name ≠ ""
  distinct : us.Pairwise fun u v => u.path ≠ v.path

/-- A unit that comes after others breaks the rule that an error tells of. -/
inductive SourceUnit.Breaks (before : List SourceUnit) (u : SourceUnit) : CorpusError → Prop
  | emptyPath (h : u.trimmedPath = []) : Breaks before u (.emptyPath before.length)
  | emptyBasename {c : Char} (h : u.trimmedPath.getLast? = some c) (hc : c = '/' ∨ c = '\\') :
    Breaks before u (.emptyBasename u.path)
  | emptySymbolName {s : Symbol} (hs : s ∈ u.symbols) (h : s.name = "") :
    Breaks before u (.emptySymbolName u.path)
  | duplicateUnit {b : SourceUnit} (hb : b ∈ before) (h : b.path = u.path) :
    Breaks before u (.duplicateUnit u.path)

/-- Which of several errors of a unit is reported: the one of the lowest rank. -/
def CorpusError.rank : CorpusError → Nat
  | emptyPath _ => 0
  | emptyBasename _ => 1
  | emptySymbolName _ => 2
  | duplicateUnit _ => 3
  | malformed _ => 4

/-- An error tells of the first rule that a unit breaks. -/
structure SourceUnit.Reports (before : List SourceUnit) (u : SourceUnit) (e : CorpusError) :
    Prop where
  breaks : u.Breaks before e
  first : ∀ e', u.Breaks before e' → e.rank ≤ e'.rank

/-- A path ends with a separator if nothing follows the last one. -/
theorem SourceUnit.lastComponent_ne_nil_iff (h : u.trimmedPath ≠ []) :
    Path.lastComponent u.trimmedPath ≠ [] ↔
      ∀ c ∈ u.trimmedPath.getLast?, c ≠ '/' ∧ c ≠ '\\' := by
  obtain ⟨l, c, hl⟩ := (List.eq_nil_or_concat _).resolve_left h
  rw [Ne, Path.lastComponent_eq_nil_iff, hl]
  simp [Path.isSeparator]

theorem acceptable_iff :
    Acceptable us ↔ (∀ u ∈ us, u.IsSound) ∧ (us.map SourceUnit.path).Nodup := by
  rw [List.Nodup, List.pairwise_map]
  constructor
  · exact fun h => ⟨fun u hu => ⟨h.path u hu,
      (SourceUnit.lastComponent_ne_nil_iff (h.path u hu)).2 (h.file u hu), h.symbols u hu⟩,
      h.distinct⟩
  · rintro ⟨hsound, hdistinct⟩
    exact ⟨fun u hu => (hsound u hu).path,
      fun u hu => (SourceUnit.lastComponent_ne_nil_iff (hsound u hu).path).1 (hsound u hu).basename,
      fun u hu => (hsound u hu).symbols, hdistinct⟩

/-- Units have no defect if they are acceptable. -/
theorem firstDefect?_eq_none_iff_acceptable : firstDefect? [] us = none ↔ Acceptable us := by
  rw [firstDefect?_eq_none_iff [] List.nodup_nil, acceptable_iff, List.nil_append]

namespace SourceUnit

/-! ## The error of a unit -/

/-- Errors of a unit that rank the same are the same. -/
theorem Breaks.eq_of_rank (h : u.Breaks before e) (h' : u.Breaks before e')
    (hrank : e.rank = e'.rank) : e = e' := by
  cases h <;> cases h' <;> first | rfl | cases hrank

theorem Reports.unique (h : u.Reports before e) (h' : u.Reports before e') : e = e' :=
  h.breaks.eq_of_rank h'.breaks (Nat.le_antisymm (h.first _ h'.breaks) (h'.first _ h.breaks))

/-- A unit without a defect breaks no rule. -/
theorem not_breaks (h : u.defect? before = none) : ¬ u.Breaks before e := by
  obtain ⟨⟨hpath, hfile, hsymbols⟩, hbefore⟩ := defect?_eq_none_iff.1 h
  rw [lastComponent_ne_nil_iff hpath] at hfile
  rintro (h | ⟨hl, hc⟩ | ⟨hs, hn⟩ | ⟨hb, hp⟩)
  · exact hpath h
  · exact hc.elim (hfile _ hl).1 (hfile _ hl).2
  · exact hsymbols _ hs hn
  · exact hbefore _ hb hp

/-! Each check that a unit passes excludes the errors of its rank. -/

theorem Breaks.one_le_rank (h : u.Breaks before e) (hpath : u.trimmedPath ≠ []) : 1 ≤ e.rank := by
  cases h with
  | emptyPath h => exact absurd h hpath
  | _ => simp [CorpusError.rank]

theorem Breaks.two_le_rank (h : u.Breaks before e) (hpath : u.trimmedPath ≠ [])
    (hfile : Path.lastComponent u.trimmedPath ≠ []) : 2 ≤ e.rank := by
  cases h with
  | emptyPath h => exact absurd h hpath
  | emptyBasename hl hc =>
    have hplain := (lastComponent_ne_nil_iff hpath).1 hfile _ hl
    exact (hc.elim hplain.1 hplain.2).elim
  | _ => simp [CorpusError.rank]

theorem Breaks.three_le_rank (h : u.Breaks before e) (hpath : u.trimmedPath ≠ [])
    (hfile : Path.lastComponent u.trimmedPath ≠ []) (hsymbols : ∀ s ∈ u.symbols, s.name ≠ "") :
    3 ≤ e.rank := by
  have htwo := h.two_le_rank hpath hfile
  cases h with
  | emptyPath h => exact absurd h hpath
  | emptyBasename => simp [CorpusError.rank] at htwo
  | emptySymbolName hs hn => exact absurd hn (hsymbols _ hs)
  | duplicateUnit => exact Nat.le_refl 3

/-- The defect of a unit tells of the first rule that the unit breaks. -/
theorem reports_of_defect? (h : u.defect? before = some e) : u.Reports before e := by
  rw [defect?] at h
  split at h
  · next hpath =>
    cases h
    exact ⟨.emptyPath (List.isEmpty_iff.1 hpath), fun _ _ => Nat.zero_le _⟩
  next hpath =>
  rw [List.isEmpty_iff] at hpath
  split at h
  · next hfile =>
    cases h
    obtain ⟨l, c, hl⟩ := (List.eq_nil_or_concat _).resolve_left hpath
    have hlast : u.trimmedPath.getLast? = some c := by simp [hl]
    have hc := Path.lastComponent_eq_nil_iff.1 (List.isEmpty_iff.1 hfile) c hlast
    exact ⟨.emptyBasename hlast (by simpa [Path.isSeparator] using hc),
      fun _ hb => hb.one_le_rank hpath⟩
  next hfile =>
  rw [List.isEmpty_iff] at hfile
  split at h
  · next hsymbols =>
    cases h
    obtain ⟨s, hs, hn⟩ := List.any_eq_true.1 hsymbols
    exact ⟨.emptySymbolName hs (String.isEmpty_iff.1 hn), fun _ hb => hb.two_le_rank hpath hfile⟩
  next hsymbols =>
  have hsymbols : ∀ s ∈ u.symbols, s.name ≠ "" := by simpa using hsymbols
  split at h
  · next hbefore =>
    cases h
    obtain ⟨b, hb, hp⟩ := List.any_eq_true.1 hbefore
    exact ⟨.duplicateUnit hb (beq_iff_eq.1 hp),
      fun _ hb => hb.three_le_rank hpath hfile hsymbols⟩
  · cases h

theorem defect?_eq_some_iff : u.defect? before = some e ↔ u.Reports before e := by
  refine ⟨reports_of_defect?, fun h => ?_⟩
  cases hu : u.defect? before with
  | none => exact absurd h.breaks (not_breaks hu)
  | some e' => rw [(reports_of_defect? hu).unique h]

end SourceUnit

/-- The first defect is that of a unit after units without one. -/
theorem firstDefect?_eq_some_iff : firstDefect? before us = some e ↔
    ∃ pre u post, us = pre ++ u :: post ∧ firstDefect? before pre = none ∧
      u.defect? (before ++ pre) = some e := by
  induction us generalizing before with
  | nil => simp [firstDefect?]
  | cons v us ih =>
    rw [firstDefect?]
    constructor
    · intro h
      split at h
      · next d hd =>
        exact ⟨[], v, us, rfl, rfl, by rw [List.append_nil, hd, h]⟩
      · next hv =>
        obtain ⟨pre, u, post, rfl, hpre, hu⟩ := ih.1 h
        refine ⟨v :: pre, u, post, rfl, ?_, List.append_cons .. ▸ hu⟩
        rw [firstDefect?, hv]
        exact hpre
    · rintro ⟨pre, u, post, heq, hpre, hu⟩
      cases pre with
      | nil =>
        obtain ⟨rfl, rfl⟩ := List.cons_eq_cons.1 heq
        rw [List.append_nil] at hu
        rw [hu]
      | cons w pre =>
        obtain ⟨rfl, rfl⟩ := List.cons_eq_cons.1 heq
        rw [firstDefect?] at hpre
        split at hpre
        · cases hpre
        · next hv => exact ih.2 ⟨pre, u, post, rfl, hpre, List.append_cons .. ▸ hu⟩

/-! ## The index -/

namespace PathIndex

/-- An index holds the places of units by their paths. -/
def Indexes (m : PathIndex) (us : List SourceUnit) : Prop :=
  ∀ p, m.get? p = us.findIdx? (·.path == p)

/-- A unit whose path is new has the next place. -/
theorem Indexes.insert (h : m.Indexes before) (hu : ∀ b ∈ before, b.path ≠ u.path) :
    Indexes (m.insert u.path before.length) (before ++ [u]) := by
  intro p
  rw [OrdMap.get?_insert, List.findIdx?_append, h]
  by_cases hp : p = u.path
  · subst hp
    have hnone : before.findIdx? (·.path == u.path) = none :=
      List.findIdx?_eq_none_iff.2 fun b hb => beq_false_of_ne (hu b hb)
    simp [hnone]
  · have hne : (u.path == p) = false := beq_false_of_ne (Ne.symm hp)
    simp [hp, hne]

/-- With the index of the units before it a unit is put in, unless it has a defect. -/
theorem enroll_eq (h : m.Indexes before) (u : SourceUnit) :
    enroll m before.length u =
      match u.defect? before with
      | some e => .error e
      | none => .ok (m.insert u.path before.length) := by
  have hdup : (m.get? u.path).isSome = before.any (·.path == u.path) := by
    rw [h, List.findIdx?_isSome]
  rw [enroll, SourceUnit.defect?, hdup]
  split_ifs <;> rfl

/-- What becomes of units after others is decided by their first defect. -/
theorem extend_eq (us : List SourceUnit) (h : m.Indexes before) :
    match firstDefect? before us with
    | some e => extend m before.length us = .error e
    | none => ∃ m', extend m before.length us = .ok m' ∧ m'.Indexes (before ++ us) := by
  induction us generalizing m before with
  | nil => exact ⟨m, rfl, (List.append_nil before).symm ▸ h⟩
  | cons u us ih =>
    rw [extend, enroll_eq h, firstDefect?]
    cases hu : u.defect? before with
    | some e => rfl
    | none =>
      have hnew := (SourceUnit.defect?_eq_none_iff.1 hu).2
      have hrun := ih (h.insert hnew)
      rw [List.length_append, List.append_assoc] at hrun
      exact hrun

/-- The pass over units fails with their first defect, or finds their places. -/
theorem ofUnits_eq (us : List SourceUnit) :
    match Corpus.ofUnits us with
    | .error e => ofUnits us = .error e
    | .ok c => ∃ m, ofUnits us = .ok m ∧ ∀ p, m.get? p = c.idOf? p := by
  have hempty : Indexes .empty [] := fun _ => rfl
  have h := extend_eq us hempty
  cases hc : Corpus.ofUnits us with
  | error e => rwa [Corpus.ofUnits_eq_error_iff.1 hc] at h
  | ok c =>
    obtain rfl := Corpus.ofUnits_eq_ok_iff.1 hc
    rwa [c.sound] at h

end PathIndex

/-! ## Corpora -/

namespace Corpus

/-- A corpus holds units as they stand, and finds them by their paths. -/
structure Holds (c : Corpus) (us : List SourceUnit) : Prop where
  units : c.units = us
  unit? : ∀ i, c.unit? i = us[i]?
  idOf? : ∀ p i, c.idOf? p = some i ↔ ∃ u, us[i]? = some u ∧ u.path = p
  contains : ∀ p, c.contains p ↔ ∃ u ∈ us, u.path = p

theorem holds_units (c : Corpus) : c.Holds c.units := by
  refine ⟨rfl, fun _ => rfl, fun _ _ => idOf?_eq_some_iff, fun p => ?_⟩
  rw [contains, idOf?, List.findIdx?_isSome, List.any_eq_true]
  simp only [beq_iff_eq]

/-- Units become a corpus if they are acceptable, and it holds them. Otherwise the error is
that of the first unit that breaks a rule after acceptable units. The pass that numbers the
units fails with the same error, and its index holds the ids of the corpus. -/
theorem ofUnits_exact (us : List SourceUnit) :
    ((∃ c, ofUnits us = .ok c) ↔ Acceptable us) ∧
    (∀ c, ofUnits us = .ok c → c.Holds us ∧
      ∃ m, PathIndex.ofUnits us = .ok m ∧ ∀ p, m.get? p = c.idOf? p) ∧
    ∀ e, (ofUnits us = .error e ↔ ∃ before u after, us = before ++ u :: after ∧
        Acceptable before ∧ u.Reports before e) ∧
      (PathIndex.ofUnits us = .error e ↔ ofUnits us = .error e) := by
  have hindex := PathIndex.ofUnits_eq us
  refine ⟨?_, fun c hc => ?_, fun e => ⟨?_, ?_⟩⟩
  · rw [← firstDefect?_eq_none_iff_acceptable]
    constructor
    · rintro ⟨c, hc⟩
      exact ofUnits_eq_ok_iff.1 hc ▸ c.sound
    · exact fun h => ⟨⟨us, h⟩, ofUnits_eq_ok_iff.2 rfl⟩
  · rw [hc] at hindex
    exact ⟨ofUnits_eq_ok_iff.1 hc ▸ c.holds_units, hindex⟩
  · simp only [ofUnits_eq_error_iff, firstDefect?_eq_some_iff, List.nil_append,
      firstDefect?_eq_none_iff_acceptable, SourceUnit.defect?_eq_some_iff]
  · cases hc : ofUnits us with
    | error d =>
      rw [hc] at hindex
      rw [hindex, Except.error.injEq, Except.error.injEq]
    | ok c =>
      rw [hc] at hindex
      obtain ⟨m, hm, -⟩ := hindex
      rw [hm]
      exact ⟨nofun, nofun⟩

/-- Two files are accepted. A directory with a nameless symbol that comes after the first is
reported as a directory, before the unit without a path that comes next. -/
theorem ofUnits_exact_directory :
    (∃ c, ofUnits [.ofReferences "a.c" [], .ofReferences "b.c" []] = .ok c ∧
      c.idOf? "b.c" = some 1 ∧ c.contains "c.c" = false) ∧
    ofUnits [.ofReferences "a.c" [], ⟨" a/\u00a0", [⟨"", false⟩], [], false⟩,
      .ofReferences "" []] = .error (.emptyBasename " a/\u00a0") := by
  have hfiles : Acceptable [.ofReferences "a.c" [], .ofReferences "b.c" []] :=
    firstDefect?_eq_none_iff_acceptable.1 (by decide)
  have hfile : Acceptable [.ofReferences "a.c" []] :=
    firstDefect?_eq_none_iff_acceptable.1 (by decide)
  refine ⟨?_, ((ofUnits_exact _).2.2 _).1.2 ⟨_, _, _, rfl, hfile,
    SourceUnit.defect?_eq_some_iff.1 (by decide)⟩⟩
  obtain ⟨c, hc⟩ := (ofUnits_exact _).1.2 hfiles
  obtain ⟨hholds, -⟩ := (ofUnits_exact _).2.1 c hc
  refine ⟨c, hc, (hholds.idOf? _ _).2 ⟨_, rfl, rfl⟩, ?_⟩
  rw [← Bool.not_eq_true, hholds.contains]
  decide

end Corpus

end Layering
