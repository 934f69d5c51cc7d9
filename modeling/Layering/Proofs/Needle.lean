import Layering.Classification
import Layering.Proofs.Text.Lowercase

/-!
# Paths that contain a text

A predicate that asks for texts in a path compares them in lower case. It holds of every path in
which one of them occurs as it stands if the lower case of the text does not depend on the path,
and only then (`PathPredicate.accepts_contains_iff_isSettled`).
-/

namespace Layering

/-- A predicate can be compiled, and holds of a path. -/
def PathPredicate.Accepts (p : PathPredicate) (path : String) : Prop :=
  ∃ m, p.compile = .ok m ∧ m.holds (.of path)

namespace PathPredicate

variable {needles : List String} {path : String}

theorem accepts_contains_iff : (contains needles).Accepts path ↔
    ∃ n ∈ needles, Text.lowercase n.toList <:+: Text.lowercase path.toList := by
  constructor
  · rintro ⟨m, hm, hholds⟩
    cases hm
    obtain ⟨l, hl, hoccurs⟩ := List.any_eq_true.1 hholds
    obtain ⟨n, hn, rfl⟩ := List.mem_map.1 hl
    exact ⟨n, hn, Text.occurs_iff.1 hoccurs⟩
  · rintro ⟨n, hn, hinfix⟩
    exact ⟨_, rfl, List.any_eq_true.2 ⟨_, List.mem_map_of_mem hn, Text.occurs_iff.2 hinfix⟩⟩

/-- A text without a capital sigma is found wherever it occurs. -/
theorem accepts_contains_of_not_mem {n : String} (hn : n ∈ needles) (hsigma : 'Σ' ∉ n.toList)
    (hpath : n.toList <:+: path.toList) : (contains needles).Accepts path :=
  accepts_contains_iff.2 ⟨n, hn, (Text.isSettled_of_not_mem hsigma).infix_lowercase hpath⟩

/-- A text whose capital sigmas keep their forms is found wherever it occurs, whatever else is asked
for. One with a sigma whose form depends on what stands around the text is missed in some path. -/
theorem accepts_contains_iff_isSettled (n : String) :
    (∀ (needles : List String) (path : String), n ∈ needles → n.toList <:+: path.toList →
      (contains needles).Accepts path) ↔ Text.IsSettled n.toList := by
  constructor
  · intro h
    refine Text.infix_lowercase_iff.1 fun path hpath => ?_
    have haccepts := h [n] (.ofList path) (List.mem_singleton_self n) (by simpa using hpath)
    simpa [accepts_contains_iff] using haccepts
  · exact fun hsettled needles path hn hpath =>
      accepts_contains_iff.2 ⟨n, hn, hsettled.infix_lowercase hpath⟩

/-- The sigma inside the text keeps its form, so the text is found in a longer word. -/
theorem accepts_contains_inner_sigma :
    Text.IsSettled "ΟΣΑ".toList ∧ "ΟΣΑ".toList <:+: "lib/ΜΟΣΑΣ.c".toList ∧
      (contains ["zlib", "ΟΣΑ"]).Accepts "lib/ΜΟΣΑΣ.c" := by
  have hsettled : Text.IsSettled "ΟΣΑ".toList := by decide +kernel
  have hpath : "ΟΣΑ".toList <:+: "lib/ΜΟΣΑΣ.c".toList := ⟨"lib/Μ".toList, "Σ.c".toList, rfl⟩
  exact ⟨hsettled, hpath, (accepts_contains_iff_isSettled _).2 hsettled _ _ (by simp) hpath⟩

/-- The sigma at the end of the text ends a word in the text, but not in the path: the text is not
found there, though it occurs. -/
theorem contains_misses_occurrence :
    ¬ ∀ (needles : List String) (n path : String), n ∈ needles → n.toList <:+: path.toList →
      (contains needles).Accepts path := by
  intro h
  have hpath : "ΑΣ".toList <:+: "src/ΑΣΑ.c".toList := ⟨"src/".toList, "Α.c".toList, rfl⟩
  obtain ⟨m, hm, hholds⟩ := h ["ΑΣ"] "ΑΣ" "src/ΑΣΑ.c" (by simp) hpath
  cases hm
  revert hholds
  decide +kernel

end PathPredicate

end Layering
