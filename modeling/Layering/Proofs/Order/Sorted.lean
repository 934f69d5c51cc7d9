import Layering.Analysis
import Layering.Proofs.Acceptance
import Layering.Proofs.Text.Utf8

/-!
# The analysis of sorted units

Whether units are accepted does not depend on their order (`Acceptable.of_perm`), and accepted
units have only one order in which the bytes of their paths ascend
(`eq_of_perm_of_ascending`). So the analysis of sorted units is that of any other arrangement
of them, also where the first of several candidates is meant.

* `Corpus.sorted_of_perm`: two arrangements of the same units, sorted.
-/

namespace Layering

variable {us vs : List SourceUnit} {u v : SourceUnit}

/-! ## The order of units -/

/-- The bytes of the path. -/
def SourceUnit.bytes (u : SourceUnit) : List UInt8 := Text.encode u.path.toList

/-- The paths ascend byte by byte. -/
def Ascending (us : List SourceUnit) : Prop := us.Pairwise fun u v => u.bytes < v.bytes

theorem SourceUnit.bytes_lt (h : u.path < v.path) : u.bytes < v.bytes :=
  Text.encode_lt_encode (String.lt_iff_toList_lt.1 h)

/-- Units that ascend have only one order. -/
theorem eq_of_perm_of_ascending (h : us.Perm vs) (hus : Ascending us) (hvs : Ascending vs) :
    us = vs :=
  h.eq_of_pairwise (fun _ _ _ _ huv hvu => absurd hvu (List.lt_asymm huv)) hus hvs

/-- No arrangement of units is accepted without the others. -/
theorem Acceptable.of_perm (h : us.Perm vs) (hus : Acceptable us) : Acceptable vs := by
  obtain ⟨hsound, hnodup⟩ := acceptable_iff.1 hus
  exact acceptable_iff.2
    ⟨fun u hu => hsound u (h.mem_iff.2 hu), (h.map SourceUnit.path).nodup_iff.1 hnodup⟩

namespace Corpus

variable {c d : Corpus}

/-! ## Sorted corpora -/

theorem perm_units_sorted (h : sorted us = .ok c) : c.units.Perm us :=
  ofUnits_eq_ok_iff.1 h ▸ us.mergeSort_perm byPath

theorem ascending_sorted (h : sorted us = .ok c) : Ascending c.units :=
  (ascending_units_sorted h).imp SourceUnit.bytes_lt

/-- Units are accepted in sorted order if they are accepted as they stand. -/
theorem exists_sorted_iff : (∃ c, sorted us = .ok c) ↔ Acceptable us := by
  constructor
  · rintro ⟨c, hc⟩
    exact .of_perm (perm_units_sorted hc) (firstDefect?_eq_none_iff_acceptable.1 c.sound)
  · intro h
    obtain ⟨hsound, hnodup⟩ := acceptable_iff.1 h
    exact exists_sorted hsound hnodup

/-- Of two arrangements of the same units both are accepted or none. If they are, the sorted
corpora have the same units, which is the only arrangement in which the bytes of the paths
ascend; references mean the same in them, and their analyses are the same. -/
theorem sorted_of_perm (h : us.Perm vs) :
    ((∃ c, sorted us = .ok c) ↔ Acceptable us) ∧ ((∃ d, sorted vs = .ok d) ↔ Acceptable us) ∧
    ∀ c d, sorted us = .ok c → sorted vs = .ok d →
      c.units = d.units ∧ c.units.Perm us ∧ Ascending c.units ∧
      (∀ l : List SourceUnit, l.Perm us → Ascending l → l = c.units) ∧
      (∀ config token, (Resolver.ofCorpus c config).resolve token =
        (Resolver.ofCorpus d config).resolve token) ∧
      ∀ config, Analysis.run c config = Analysis.run d config := by
  have hacceptable : Acceptable vs ↔ Acceptable us := ⟨.of_perm h.symm, .of_perm h⟩
  refine ⟨exists_sorted_iff, exists_sorted_iff.trans hacceptable, fun c d hc hd => ?_⟩
  have hperm : c.units.Perm us := perm_units_sorted hc
  have hascending : Ascending c.units := ascending_sorted hc
  have hsame : c.units.Perm d.units := hperm.trans (h.trans (perm_units_sorted hd).symm)
  obtain rfl : c = d :=
    eq_of_units (eq_of_perm_of_ascending hsame hascending (ascending_sorted hd))
  exact ⟨rfl, hperm, hascending,
    fun l hl hasc => eq_of_perm_of_ascending (hl.trans hperm.symm) hasc hascending,
    fun _ _ => rfl, fun _ => rfl⟩

/-- Two files of one name, and a unit that includes that name. -/
def twoHeaders : Corpus where
  units := [
    .ofReferences "a/x.h" [],
    .ofReferences "b/x.h" [],
    .ofReferences "main.c" ["x.h"]]
  sound := by decide +kernel

/-- The name means the first of the two files in the order of the paths, from whichever end the
units are given, but the one that comes first if they are not sorted. Sorting leaves units of
one path as they come, so that units may be rejected for another reason in another order. -/
theorem sorted_of_perm_two_headers :
    (∃ d, sorted twoHeaders.units.reverse = .ok d ∧ d.units = twoHeaders.units ∧
      (Resolver.ofCorpus d .standard).resolve "x.h" = .resolved 0) ∧
    (∃ d, ofUnits twoHeaders.units.reverse = .ok d ∧
      d.unit? 1 = some (.ofReferences "b/x.h" []) ∧
      (Resolver.ofCorpus d .standard).resolve "x.h" = .resolved 1) ∧
    sorted [⟨"a.c", [], [], false⟩, ⟨"a.c", [], [], true⟩, ⟨"a.c", [⟨"", false⟩], [], false⟩] =
      .error (.duplicateUnit "a.c") ∧
    sorted [⟨"a.c", [⟨"", false⟩], [], false⟩, ⟨"a.c", [], [], true⟩, ⟨"a.c", [], [], false⟩] =
      .error (.emptySymbolName "a.c") := by
  refine ⟨?_, ⟨⟨_, by decide +kernel⟩, rfl, rfl, by decide +kernel⟩, ?_, ?_⟩
  · have hc : sorted twoHeaders.units = .ok twoHeaders := by
      rw [sorted, List.mergeSort_of_pairwise (by decide +kernel)]
      rfl
    obtain ⟨hus, hvs, hsame⟩ := sorted_of_perm twoHeaders.units.reverse_perm.symm
    obtain ⟨d, hd⟩ := hvs.2 (hus.1 ⟨_, hc⟩)
    obtain ⟨hunits, -, -, -, hresolve, -⟩ := hsame _ d hc hd
    refine ⟨d, hd, hunits.symm, ?_⟩
    rw [← hresolve]
    decide +kernel
  all_goals
    rw [sorted, List.mergeSort_of_pairwise (by decide +kernel)]
    rfl

end Corpus

end Layering
