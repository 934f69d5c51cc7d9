import Layering.Proofs.Corpus
import Layering.Proofs.Path
import Layering.Source.Facts

/-!
# Units that are taken from texts

The symbols of a unit are the functions that its text defines, and these have names
(`Source.name_ne_empty_of_mem_functions`). So the unit is sound if its path ends in a character
that is neither a blank nor a separator (`Extractor.isSound_unit`).
-/

namespace Layering

variable {y : Symbol} {head : Source.FunctionHead} {line : List Char}

/-! ## Names of functions -/

namespace Source

theorem mem_of_mem_firstByName {seen : List String} {ys : List Symbol}
    (h : y ∈ firstByName seen ys) : y ∈ ys := by
  induction ys generalizing seen with
  | nil => exact h
  | cons z ys ih =>
    rw [firstByName] at h
    split at h
    · exact List.mem_cons_of_mem _ (ih h)
    · obtain rfl | h := List.mem_cons.1 h
      · exact List.mem_cons_self
      · exact List.mem_cons_of_mem _ (ih h)

theorem isWord_of_ofWords? {ws : List (List Char)} (h : FunctionHead.ofWords? ws = some head) :
    isWord head.name := by
  unfold FunctionHead.ofWords? at h
  split at h
  · cases h
  · extract_lets name at h
    split at h
    · cases h
    · split at h
      · next hwords =>
        obtain rfl := Option.some.inj h
        simp only [Bool.and_eq_true] at hwords
        exact hwords.2
      · cases h

theorem isWord_of_ofLine? (h : FunctionHead.ofLine? line = some head) : isWord head.name := by
  unfold FunctionHead.ofLine? at h
  extract_lets before at h
  split at h
  · cases h
  · split at h
    · exact isWord_of_ofWords? h
    · cases h

/-- A function that a text defines has a name, since the name is a word. -/
theorem name_ne_empty_of_mem_functions {text : String} (h : y ∈ functions text) : y.name ≠ "" := by
  have hy := mem_of_mem_firstByName h
  simp only [List.mem_map, List.mem_filter, List.mem_filterMap] at hy
  obtain ⟨head, ⟨⟨line, -, hline⟩, -⟩, rfl⟩ := hy
  have hword := isWord_of_ofLine? hline
  intro hname
  have hnil : head.name = [] := String.ofList_injective hname
  rw [hnil] at hword
  cases hword

end Source

theorem Extractor.config_of_ofConfig {c : ScanConfig} {x : Extractor} (h : ofConfig c = .ok x) :
    x.config = c := by
  rw [ofConfig] at h
  cases hpatterns : compileAll c.entryPatterns with
  | error e => simp [hpatterns, Except.map] at h
  | ok ps =>
    rw [hpatterns] at h
    obtain rfl := Except.ok.inj h
    rfl

/-! ## Sound units -/

/-- Only the blanks in front of a text are taken off if it does not end in a blank. -/
theorem Text.trim_append_singleton {z : Char} (hz : isBlank z = false) (l : List Char) :
    trim (l ++ [z]) = l.dropWhile isBlank ++ [z] := by
  have hdrop : (l ++ [z]).dropWhile isBlank = l.dropWhile isBlank ++ [z] := by
    rw [List.dropWhile_append]
    split
    · next h => simp [List.isEmpty_iff.1 h, hz]
    · rfl
  rw [trim, stripWhile, hdrop, dropEndWhile, List.reverse_concat,
    List.dropWhile_cons_of_neg (by simp [hz]), List.reverse_cons, List.reverse_reverse]

theorem Extractor.isSound_unit {z : Char} {path : String} (x : Extractor) (text : String)
    (hend : path.toList.getLast? = some z) (hblank : Text.isBlank z = false)
    (hsep : Path.isSeparator z = false) : (x.unit path text).IsSound := by
  obtain ⟨l, hl⟩ := List.getLast?_eq_some_iff.1 hend
  have htrim : (x.unit path text).trimmedPath = l.dropWhile Text.isBlank ++ [z] := by
    rw [← Text.trim_append_singleton hblank, ← hl]
    rfl
  refine ⟨?_, ?_, fun y hy => Source.name_ne_empty_of_mem_functions hy⟩
  · simp [htrim]
  · rw [htrim]
    exact Path.lastComponent_ne_nil List.reverse_concat (by simp [hsep])

end Layering
