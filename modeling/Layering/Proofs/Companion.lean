import Layering.Proofs.Corpus
import Layering.Proofs.Grouping
import Layering.Proofs.Path

/-!
# Companions

Headers take the classifications of their companions one after the other, in
place, so a header ends up with what its companion had by then, and that may be
the companion's companion's (`Grouping.getElem?_classifications_eq_origin`). If
extensions have no dots and no separators, a companion is its own companion or has
none (`Grouping.companion?_companion`), so that its own classification never
changes, and each header ends up with the one that its companion had at first
(`Grouping.classifications_eq`).
-/

namespace Layering.Grouping

variable {corpus : Corpus} {classifier : Classifier} {config : ResolutionConfig}
  {i j : UnitId} {u v : SourceUnit} {p : String}

/-- The extensions of sources are extensions. -/
def SourceExtensions (config : ResolutionConfig) : Prop :=
  ∀ e ∈ config.sourceExtensions, Path.IsExtension e.toList

instance (config : ResolutionConfig) : Decidable (SourceExtensions config) :=
  inferInstanceAs (Decidable (∀ e ∈ config.sourceExtensions, Path.IsExtension e.toList))

/-- The unit whose classification counts for a unit: its companion, or itself. -/
def leader (corpus : Corpus) (config : ResolutionConfig) (u : SourceUnit) : SourceUnit :=
  ((companion? corpus config u.path).bind (corpus.units[·]?)).getD u

theorem isSome_extension?_of_isHeader (h : config.isHeader p) : (Path.extension? p).isSome := by
  unfold ResolutionConfig.isHeader ResolutionConfig.hasExtension at h
  split at h
  · next e he => rw [he]; rfl
  · cases h

/-- A companion has the stem of the header and one of the extensions. -/
theorem exists_of_companion? (h : companion? corpus config p = some j) : config.isHeader p ∧
    ∃ e ∈ config.sourceExtensions, corpus.idOf? (Path.withExtension (Path.stem p) e) = some j := by
  unfold companion? at h
  split at h
  · next hp => exact ⟨hp, List.exists_of_findSome?_eq_some h⟩
  · cases h

theorem exists_unit_of_companion? (h : companion? corpus config p = some j) :
    ∃ v, corpus.units[j]? = some v := by
  obtain ⟨-, e, -, hid⟩ := exists_of_companion? h
  obtain ⟨v, hv, -⟩ := Corpus.idOf?_eq_some_iff.1 hid
  exact ⟨v, hv⟩

/-- A companion is its own companion, or has none. -/
theorem companion?_companion (he : SourceExtensions config)
    (h : companion? corpus config p = some j) : ∃ v, corpus.units[j]? = some v ∧
      (companion? corpus config v.path = none ∨ companion? corpus config v.path = some j) := by
  obtain ⟨hp, e, hmem, hid⟩ := exists_of_companion? h
  obtain ⟨v, hv, hpath⟩ := Corpus.idOf?_eq_some_iff.1 hid
  refine ⟨v, hv, ?_⟩
  by_cases hh : config.isHeader v.path
  · have hstem : Path.stem v.path = Path.stem p := by
      rw [hpath]
      exact Path.stem_withExtension (isSome_extension?_of_isHeader hp) (he e hmem)
    rw [companion?, if_pos hp] at h
    rw [companion?, if_pos hh, hstem]
    exact .inr h
  · rw [companion?, if_neg hh]
    exact .inl rfl

theorem leader_of_none (h : companion? corpus config u.path = none) :
    leader corpus config u = u := by rw [leader, h]; rfl

theorem leader_of_some (h : companion? corpus config u.path = some j)
    (hv : corpus.units[j]? = some v) : leader corpus config u = v := by
  rw [leader, h, Option.bind_some, hv, Option.getD_some]

/-- The companion of a unit counts for itself. -/
theorem leader_companion (he : SourceExtensions config)
    (h : companion? corpus config p = some j) (hv : corpus.units[j]? = some v) :
    leader corpus config v = v := by
  obtain ⟨w, hw, hc⟩ := companion?_companion he h
  obtain rfl := Option.some_inj.1 (hw.symm.trans hv)
  rcases hc with hc | hc
  · exact leader_of_none hc
  · exact leader_of_some hc hv

/-! ## The pass over the headers -/

/-- The unit whose path a unit ends up classified by. A unit takes over what its companion
has by then: if the companion comes later in the corpus that is its own, and if it comes
earlier what it has taken over itself. -/
def origin (corpus : Corpus) (config : ResolutionConfig) (i : UnitId) : UnitId :=
  match corpus.units[i]?.bind fun u => companion? corpus config u.path with
  | some j => if j < i then origin corpus config j else j
  | none => i

theorem origin_eq (hu : corpus.units[i]? = some u) : origin corpus config i =
    if (companion? corpus config u.path).getD i < i then
      origin corpus config ((companion? corpus config u.path).getD i)
    else (companion? corpus config u.path).getD i := by
  rw [origin, hu, Option.bind_some]
  cases companion? corpus config u.path with
  | none => rw [Option.getD_none, if_neg (Nat.lt_irrefl i)]
  | some j => rw [Option.getD_some]

theorem origin_of_none (hu : corpus.units[i]? = some u)
    (hc : companion? corpus config u.path = none) : origin corpus config i = i := by
  rw [origin_eq hu, hc, Option.getD_none, if_neg (Nat.lt_irrefl i)]

/-- Pairing a unit changes its own entry only: it becomes that of its companion. -/
theorem getElem?_pair_eq {keys : List Classification} (h : keys.length = corpus.units.length)
    (hu : corpus.units[i]? = some u) (k : UnitId) : (pair corpus config keys (i, u))[k]? =
      keys[if k = i then (companion? corpus config u.path).getD i else k]? := by
  rw [pair]
  cases hc : companion? corpus config u.path with
  | none =>
    rw [Option.bind_none, Option.getD_none]
    by_cases hki : k = i
    · rw [if_pos hki, hki]
    · rw [if_neg hki]
  | some j =>
    obtain ⟨v, hv⟩ := exists_unit_of_companion? hc
    have hi : i < keys.length := h ▸ (List.getElem?_eq_some_iff.1 hu).1
    have hj : j < keys.length := h ▸ (List.getElem?_eq_some_iff.1 hv).1
    rw [Option.bind_some, List.getElem?_eq_getElem hj, Option.getD_some]
    by_cases hki : k = i
    · rw [if_pos hki, hki, List.getElem?_eq_getElem hj]
      exact List.getElem?_set_self hi
    · rw [if_neg hki]
      exact List.getElem?_set_ne (Ne.symm hki)

/-- After the first `n` units have been paired, these are classified by the paths that their
classifications come from, and the others by their own. -/
theorem getElem?_foldl_take {n : Nat} (hn : n ≤ corpus.units.length) (i : UnitId) :
    ((corpus.indexed.take n).foldl (pair corpus config)
        (corpus.units.map fun u => classifier.classify u.path))[i]? =
      corpus.units[if i < n then origin corpus config i else i]?.map
        fun u => classifier.classify u.path := by
  induction n generalizing i with
  | zero => rw [List.take_zero, List.foldl_nil, List.getElem?_map, if_neg (Nat.not_lt_zero i)]
  | succ n ih =>
    have hu : corpus.units[n]? = some corpus.units[n] := List.getElem?_eq_getElem hn
    have hlength : ((corpus.indexed.take n).foldl (pair corpus config)
        (corpus.units.map fun u => classifier.classify u.path)).length = corpus.units.length := by
      rw [length_foldl_pair, List.length_map]
    rw [List.take_add_one, Corpus.getElem?_indexed, hu, Option.map_some, Option.toList_some,
      List.foldl_append, List.foldl_cons, List.foldl_nil, getElem?_pair_eq hlength hu,
      ih (Nat.le_of_succ_le hn)]
    by_cases hin : i = n
    · rw [if_pos hin, ← origin_eq hu, if_pos (Nat.lt_succ_of_le hin.le), hin]
    · have hlt : i < n ↔ i < n + 1 :=
        ⟨Nat.lt_succ_of_lt, fun h => Nat.lt_of_le_of_ne (Nat.le_of_lt_succ h) hin⟩
      simp only [if_neg hin, hlt]

/-- While headers are paired, a unit ends up with the classification of the path that it
comes from. -/
theorem getElem?_classifications_eq_origin (hp : config.pairCompanionHeaders)
    (hu : corpus.units[i]? = some u) : (classifications corpus classifier config)[i]? =
      corpus.units[origin corpus config i]?.map fun v => classifier.classify v.path := by
  have hi : i < corpus.units.length := (List.getElem?_eq_some_iff.1 hu).1
  have hindexed : corpus.indexed.take corpus.units.length = corpus.indexed :=
    List.take_of_length_le (by simp [Corpus.indexed])
  rw [classifications, if_pos hp, ← hindexed]
  exact (getElem?_foldl_take (Nat.le_refl _) i).trans (by rw [if_pos hi])

/-- If extensions are extensions, the classification of a unit comes from the path of the unit
that counts for it. -/
theorem getElem?_origin (he : SourceExtensions config) (hu : corpus.units[i]? = some u) :
    corpus.units[origin corpus config i]? = some (leader corpus config u) := by
  cases hc : companion? corpus config u.path with
  | none => rw [origin_of_none hu hc, hu, leader_of_none hc]
  | some j =>
    obtain ⟨v, hv, hown⟩ := companion?_companion he hc
    have hj : origin corpus config j = j := by
      rcases hown with hown | hown
      · exact origin_of_none hv hown
      · rw [origin_eq hv, hown, Option.getD_some, if_neg (Nat.lt_irrefl j)]
    rw [origin_eq hu, hc, Option.getD_some, hj, ite_self, hv, leader_of_some hc hv]

/-- The unit that counts for a unit under a configuration. -/
def keyUnit (corpus : Corpus) (config : ResolutionConfig) (u : SourceUnit) : SourceUnit :=
  if config.pairCompanionHeaders then leader corpus config u else u

/-- A unit is classified by the path of the unit that counts for it. -/
theorem classifications_eq (he : SourceExtensions config) :
    classifications corpus classifier config =
      corpus.units.map fun u => classifier.classify (keyUnit corpus config u).path := by
  by_cases hp : config.pairCompanionHeaders
  · refine List.ext_getElem? fun i => ?_
    rw [List.getElem?_map]
    cases hu : corpus.units[i]? with
    | none =>
      rw [Option.map_none, List.getElem?_eq_none_iff, length_classifications]
      exact List.getElem?_eq_none_iff.1 hu
    | some u =>
      rw [getElem?_classifications_eq_origin hp hu, getElem?_origin he hu, Option.map_some,
        Option.map_some, keyUnit, if_pos hp]
  · simp only [classifications, keyUnit, if_neg hp]

end Layering.Grouping
