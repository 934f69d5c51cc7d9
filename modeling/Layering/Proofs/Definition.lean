import Layering.Proofs.Acceptance
import Layering.Proofs.FunctionHead
import Layering.Scanner

/-!
# Functions in parts of a text

The functions of a text are found line by line: a line adds the symbol that it defines, unless one
of its name has been found (`Source.note`, `Source.functions_eq_foldl`). So after some lines more
lines add what they define by themselves, without the names that are known
(`Source.foldl_note`), and each name that is found is that of the first line that defines it
(`Source.Found`).

* `Source.functions_exact`: the functions of two texts in a row, and what is found in any text.
-/

namespace Layering

/-! ## Lines -/

namespace Text

variable {a : List Char}

/-- Pieces do not go on over a separator. -/
theorem splitOn_append_sep {α : Type} [DecidableEq α] (sep : α) (l m : List α) :
    splitOn sep (l ++ sep :: m) = splitOn sep l ++ splitOn sep m := by
  induction l with
  | nil => simp [splitOn]
  | cons c l ih =>
    obtain ⟨p, ps, hp⟩ := List.exists_cons_of_ne_nil (splitOn_ne_nil sep l)
    rw [List.cons_append, splitOn, splitOn, ih, hp]
    split <;> rfl

/-- Each piece in front of others is a line. -/
theorem closeLines_append (ps : List (List Char)) {qs : List (List Char)} (hqs : qs ≠ []) :
    closeLines (ps ++ qs) = ps.map dropReturn ++ closeLines qs := by
  induction ps with
  | nil => rfl
  | cons p ps ih =>
    obtain ⟨q, rest, hq⟩ := List.exists_cons_of_ne_nil (List.append_ne_nil_of_right_ne_nil ps hqs)
    rw [List.cons_append, hq, closeLines, ← hq, ih]
    rfl

theorem lines_append_newline (l m : List Char) :
    lines (l ++ '\n' :: m) = (splitOn '\n' l).map dropReturn ++ lines m := by
  rw [lines, splitOn_append_sep, closeLines_append _ (splitOn_ne_nil _ m), lines]

/-- A text that ends with a line feed ends with a line. -/
theorem lines_append (h : a = [] ∨ a.getLast? = some '\n') (b : List Char) :
    lines (a ++ b) = lines a ++ lines b := by
  obtain rfl | h := h
  · rfl
  · obtain ⟨l, rfl⟩ := List.getLast?_eq_some_iff.1 h
    rw [List.append_assoc, List.singleton_append, lines_append_newline, lines_append_newline]
    simp [lines, splitOn, closeLines]

end Text

namespace Source

variable {found ys : List Symbol} {y : Symbol} {line : List Char} {text : String}

/-! ## One line after the other -/

/-- The symbol that a line defines, if it is the head of a function and no other statement. -/
def definition? (line : List Char) : Option Symbol :=
  ((FunctionHead.ofLine? (Text.trim line)).filter FunctionHead.isDefinition).map FunctionHead.symbol

/-- The symbols that the lines of a text define, a name as often as it is defined. -/
def definitions (text : String) : List Symbol := (Text.lines text.toList).filterMap definition?

/-- The symbols after one more line, which may define one of a new name. -/
def note (found : List Symbol) (line : List Char) : List Symbol :=
  match definition? line with
  | some y => if found.any (·.name == y.name) then found else found ++ [y]
  | none => found

theorem note_of_none (h : definition? line = none) : note found line = found := by
  rw [note, h]

theorem note_of_mem (h : definition? line = some y) (hy : y.name ∈ found.map Symbol.name) :
    note found line = found := by
  have hany : found.any (·.name == y.name) := by simpa using hy
  simp only [note, h, hany, if_true]

theorem note_of_not_mem (h : definition? line = some y) (hy : y.name ∉ found.map Symbol.name) :
    note found line = found ++ [y] := by
  have hany : found.any (·.name == y.name) = false := by simpa using hy
  simp [note, h, hany]

/-- Which names are left out depends on the names that are known, not on their order. -/
theorem firstByName_congr {seen seen' : List String} (h : ∀ n, n ∈ seen ↔ n ∈ seen')
    (ys : List Symbol) : firstByName seen ys = firstByName seen' ys := by
  induction ys generalizing seen seen' with
  | nil => rfl
  | cons y ys ih =>
    have hcontains : seen.contains y.name = seen'.contains y.name := by
      rw [Bool.eq_iff_iff, List.contains_iff_mem, List.contains_iff_mem, h]
    have hcons : ∀ n, n ∈ y.name :: seen ↔ n ∈ y.name :: seen' := fun n => by simp [h]
    rw [firstByName, firstByName, hcontains, ih h, ih hcons]

theorem foldl_note_eq_firstByName (found : List Symbol) (ls : List (List Char)) :
    ls.foldl note found =
      found ++ firstByName (found.map Symbol.name) (ls.filterMap definition?) := by
  induction ls generalizing found with
  | nil => simp [firstByName]
  | cons line ls ih =>
    rw [List.foldl_cons, ih]
    cases hline : definition? line with
    | none => rw [note_of_none hline, List.filterMap_cons_none hline]
    | some y =>
      rw [List.filterMap_cons_some hline, firstByName]
      by_cases hy : y.name ∈ found.map Symbol.name
      · rw [note_of_mem hline hy, if_pos (List.contains_iff_mem.2 hy)]
      · have hnames : ∀ n, n ∈ (found ++ [y]).map Symbol.name ↔
            n ∈ y.name :: found.map Symbol.name := by simp [or_comm]
        rw [note_of_not_mem hline hy, if_neg (mt List.contains_iff_mem.1 hy),
          firstByName_congr hnames, List.append_assoc, List.singleton_append]

/-- The functions of a text are noted line by line. -/
theorem functions_eq_foldl (text : String) :
    functions text = (Text.lines text.toList).foldl note [] := by
  rw [foldl_note_eq_firstByName, functions, List.filter_filterMap, List.map_filterMap]
  rfl

/-! ## More lines -/

/-- Some symbols, and behind them those of others that have new names. -/
def merge (found ys : List Symbol) : List Symbol :=
  found ++ ys.filter fun y => y.name ∉ found.map Symbol.name

theorem mem_names_merge {n : String} :
    n ∈ (merge found ys).map Symbol.name ↔ n ∈ found.map Symbol.name ∨ n ∈ ys.map Symbol.name := by
  rw [merge, List.map_append, List.mem_append]
  by_cases hn : n ∈ found.map Symbol.name
  · simp only [hn, true_or]
  · refine or_congr_right ⟨fun hmem => ?_, fun hmem => ?_⟩ <;>
      obtain ⟨y, hy, rfl⟩ := List.mem_map.1 hmem
    · exact List.mem_map_of_mem (List.mem_of_mem_filter hy)
    · exact List.mem_map_of_mem (List.mem_filter.2 ⟨hy, decide_eq_true hn⟩)

theorem merge_assoc (xs ys zs : List Symbol) :
    merge (merge xs ys) zs = merge xs (merge ys zs) := by
  have hnew : ∀ z ∈ zs, decide (z.name ∉ (merge xs ys).map Symbol.name) =
      (decide (z.name ∉ xs.map Symbol.name) && decide (z.name ∉ ys.map Symbol.name)) := by
    intro z _
    rw [← Bool.decide_and, decide_eq_decide, mem_names_merge, not_or]
  rw [merge, List.filter_congr hnew, merge, merge, merge, List.filter_append, List.filter_filter,
    List.append_assoc]

theorem note_eq_merge (found : List Symbol) (line : List Char) :
    note found line = merge found (definition? line).toList := by
  cases hline : definition? line with
  | none => simp [note_of_none hline, merge]
  | some y =>
    by_cases hy : y.name ∈ found.map Symbol.name
    · rw [note_of_mem hline hy, merge, Option.toList_some, List.filter_cons_of_neg (by simpa using hy)]
      simp
    · rw [note_of_not_mem hline hy, merge, Option.toList_some,
        List.filter_cons_of_pos (by simpa using hy)]
      simp

/-- Lines add to what is known what they define by themselves, without the names that are
known. -/
theorem foldl_note (found : List Symbol) (ls : List (List Char)) :
    ls.foldl note found = merge found (ls.foldl note []) := by
  induction ls generalizing found with
  | nil => simp [merge]
  | cons line ls ih =>
    have hfirst : note [] line = (definition? line).toList := by
      simp [note_eq_merge, merge]
    calc ls.foldl note (note found line)
      _ = merge (merge found (definition? line).toList) (ls.foldl note []) := by
        rw [ih, note_eq_merge]
      _ = merge found (merge (note [] line) (ls.foldl note [])) := by rw [merge_assoc, hfirst]
      _ = merge found (ls.foldl note (note [] line)) := by rw [← ih]

/-! ## What is found -/

/-- What is found where lines define the symbols `ys`: of each name the first symbol. -/
structure Found (ys found : List Symbol) : Prop where
  nodup : (found.map Symbol.name).Nodup
  mem_iff : ∀ y, y ∈ found ↔ ys.find? (·.name == y.name) = some y

namespace Found

theorem nil : Found [] [] := ⟨List.nodup_nil, by simp⟩

/-- A symbol of a name has been found if a line defined one. -/
theorem mem_names_iff (h : Found ys found) (n : String) :
    n ∈ found.map Symbol.name ↔ n ∈ ys.map Symbol.name := by
  simp only [List.mem_map]
  constructor
  · rintro ⟨y, hy, rfl⟩
    exact ⟨y, List.mem_of_find?_eq_some ((h.mem_iff y).1 hy), rfl⟩
  · rintro ⟨y, hy, rfl⟩
    have hsome : (ys.find? (·.name == y.name)).isSome :=
      List.find?_isSome.2 ⟨y, hy, beq_iff_eq.2 rfl⟩
    obtain ⟨z, hz⟩ := Option.isSome_iff_exists.1 hsome
    have hname : z.name = y.name := by simpa using List.find?_some hz
    exact ⟨z, (h.mem_iff z).2 (by rwa [hname]), hname⟩

/-- One more line. -/
theorem note (h : Found ys found) (line : List Char) :
    Found (ys ++ (definition? line).toList) (note found line) := by
  cases hline : definition? line with
  | none => rwa [note_of_none hline, Option.toList_none, List.append_nil]
  | some d =>
    have hmem := h.mem_names_iff d.name
    rw [Option.toList_some]
    by_cases hd : d.name ∈ found.map Symbol.name
    · rw [note_of_mem hline hd]
      refine ⟨h.nodup, fun y => ?_⟩
      rw [h.mem_iff, List.find?_append, Option.or_eq_some_iff]
      refine ⟨.inl, fun hy => hy.resolve_right fun ⟨hnone, hy⟩ => ?_⟩
      -- a line before has defined the name
      obtain ⟨z, hz, hname⟩ := List.mem_map.1 (hmem.1 hd)
      obtain ⟨-, rfl⟩ : d.name = y.name ∧ d = y := by simpa using hy
      exact List.find?_eq_none.1 hnone z hz (by simp [hname])
    · rw [note_of_not_mem hline hd]
      refine ⟨?_, fun y => ?_⟩
      · rw [List.map_append, List.nodup_append]
        refine ⟨h.nodup, List.nodup_singleton _, ?_⟩
        rintro n hn _ hn' rfl
        exact hd (List.mem_singleton.1 hn' ▸ hn)
      · rw [List.mem_append, h.mem_iff, List.find?_append, Option.or_eq_some_iff,
          List.mem_singleton]
        refine or_congr_right ⟨?_, fun ⟨_, hy⟩ => ?_⟩
        · rintro rfl
          refine ⟨List.find?_eq_none.2 fun z hz hname => hd (hmem.2 ?_), by simp⟩
          exact List.mem_map.2 ⟨z, hz, beq_iff_eq.1 hname⟩
        · obtain ⟨-, rfl⟩ : d.name = y.name ∧ d = y := by simpa using hy
          rfl

theorem foldl_note (h : Found ys found) (ls : List (List Char)) :
    Found (ys ++ ls.filterMap definition?) (ls.foldl Source.note found) := by
  induction ls generalizing ys found with
  | nil => rwa [List.filterMap_nil, List.append_nil]
  | cons line ls ih =>
    have hnext := ih (h.note line)
    rw [List.filterMap_eq_flatMap_toList, List.flatMap_cons, ← List.append_assoc,
      ← List.filterMap_eq_flatMap_toList]
    exact hnext

end Found

theorem found_functions (text : String) : Found (definitions text) (functions text) := by
  rw [functions_eq_foldl]
  exact Found.nil.foldl_note _

/-! ## Names -/

/-- A name that functions can have. -/
structure IsFunctionName (n : String) : Prop where
  ne_empty : n ≠ ""
  not_keyword : n ∉ ["if", "while", "for", "switch", "return", "sizeof", "else"]
  /-- It does not begin with an underscore and a capital letter. -/
  not_reserved : ∀ c l, n.toList = '_' :: c :: l → ¬ ('A' ≤ c ∧ c ≤ 'Z')

theorem isFunctionName_of_isDefinition {h : FunctionHead} (hword : isWord h.name)
    (hdef : h.isDefinition) : IsFunctionName h.symbol.name := by
  simp only [FunctionHead.isDefinition, Bool.and_eq_true, Bool.not_eq_true'] at hdef
  obtain ⟨⟨hreserved, hkeyword⟩, -⟩ := hdef
  have hname : h.symbol.name.toList = h.name := String.toList_ofList
  refine ⟨fun hempty => ?_, fun hmem => ?_, fun c l hl hcapital => ?_⟩
  · exact (isWord_iff.1 hword).1 (by rw [← hname, hempty]; rfl)
  · have hin : h.name ∈ FunctionHead.keywords := hname ▸ List.mem_map_of_mem hmem
    rw [List.contains_iff_mem.2 hin] at hkeyword
    cases hkeyword
  · rw [← hname, hl] at hreserved
    have hupper : c.isUpper := decide_eq_true hcapital
    cases hupper.symm.trans hreserved

theorem isFunctionName_of_mem_definitions (h : y ∈ definitions text) : IsFunctionName y.name := by
  obtain ⟨line, -, hline⟩ := List.mem_filterMap.1 h
  obtain ⟨head, hhead, rfl⟩ := Option.map_eq_some_iff.1 hline
  obtain ⟨hread, hdef⟩ := Option.filter_eq_some_iff.1 hhead
  exact isFunctionName_of_isDefinition (isWord_of_ofLine? hread) hdef

end Source

/-! ## Scanned units -/

/-- A unit that is taken from a text is not kept out because of a symbol without a name. -/
theorem Extractor.defect?_unit_ne (x : Extractor) (path text : String) (before : List SourceUnit)
    (p : String) : (x.unit path text).defect? before ≠ some (.emptySymbolName p) := by
  intro h
  obtain @⟨⟩ | @⟨⟩ | ⟨hy, hempty⟩ | @⟨⟩ := (SourceUnit.reports_of_defect? h).breaks
  exact Source.name_ne_empty_of_mem_functions hy hempty

theorem Scanner.exists_unit_of_unit? {s : Scanner} {f : Files.FoundFile} {u : SourceUnit}
    (h : s.unit? f = some u) : ∃ path text, u = s.extractor.unit path text := by
  rw [unit?] at h
  split at h
  · split at h
    · split at h
      · cases h
      · exact ⟨_, _, (Option.some.inj h).symm⟩
    · cases h
  · cases h

/-- No scan fails because of a symbol without a name. -/
theorem Scanner.scan_ne_emptySymbolName (s : Scanner) (root : String) (dir : Option Files.Place)
    (p : String) : s.scan root dir ≠ .error (.corpus (.emptySymbolName p)) := by
  intro h
  cases dir with
  | none => cases h
  | some place =>
    rw [scan, scanPlace, Corpus.sorted] at h
    cases hcorpus : Corpus.ofUnits (((place.files s.config.respectIgnoreFiles).filterMap
      s.unit?).mergeSort Corpus.byPath) with
    | ok c =>
      rw [hcorpus] at h
      cases h
    | error e =>
      rw [hcorpus] at h
      obtain rfl : e = .emptySymbolName p := ScanError.corpus.inj (Except.error.inj h)
      obtain ⟨pre, u, post, hunits, -, hu⟩ :=
        firstDefect?_eq_some_iff.1 (Corpus.ofUnits_eq_error_iff.1 hcorpus)
      have hmem : u ∈ (place.files s.config.respectIgnoreFiles).filterMap s.unit? := by
        rw [← (List.mergeSort_perm _ Corpus.byPath).mem_iff, hunits]
        exact List.mem_append_right _ List.mem_cons_self
      obtain ⟨f, -, hf⟩ := List.mem_filterMap.1 hmem
      obtain ⟨path, text, rfl⟩ := exists_unit_of_unit? hf
      exact s.extractor.defect?_unit_ne path text _ p hu

namespace Source

/-- Where the first of two texts ends with a line, both together define what the first defines,
and then what the second defines under other names. In any text each name that is defined is found
once, as the first line that defines it has it; the names are such as functions can have, so no
unit is kept out of a corpus because of them. -/
theorem functions_exact :
    (∀ a b : String, (a = "" ∨ a.toList.getLast? = some '\n') → functions (a ++ b) =
      functions a ++ (functions b).filter fun y => y.name ∉ (functions a).map Symbol.name) ∧
    (∀ text, ((functions text).map Symbol.name).Nodup ∧
      (∀ y ∈ functions text, IsFunctionName y.name) ∧
      ∀ y, y ∈ functions text ↔ (definitions text).find? (·.name == y.name) = some y) ∧
    (∀ (x : Extractor) (path text : String) (before : List SourceUnit) (p : String),
      (x.unit path text).defect? before ≠ some (.emptySymbolName p)) ∧
    ∀ (s : Scanner) (root : String) (dir : Option Files.Place) (p : String),
      s.scan root dir ≠ .error (.corpus (.emptySymbolName p)) := by
  refine ⟨fun a b h => ?_, fun text => ?_, Extractor.defect?_unit_ne,
    Scanner.scan_ne_emptySymbolName⟩
  · have hline : a.toList = [] ∨ a.toList.getLast? = some '\n' :=
      h.imp_left fun hempty => by rw [hempty, String.toList_empty]
    rw [functions_eq_foldl, String.toList_append, Text.lines_append hline, List.foldl_append,
      ← functions_eq_foldl a, functions_eq_foldl b]
    exact foldl_note _ _
  · have hfound := found_functions text
    refine ⟨hfound.nodup, fun y hy => ?_, hfound.mem_iff⟩
    exact isFunctionName_of_mem_definitions (List.mem_of_find?_eq_some ((hfound.mem_iff y).1 hy))

/-- A function, a statement and a reserved name. -/
def privateLines : String := "static int f(int x) \x7b\nelse if(x)\nint _Go(void)\n"

/-- A second definition of a name does not change that the first one is private, and lines that
are passed over do not matter. -/
theorem functions_exact_repeated :
    privateLines.toList.getLast? = some '\n' ∧
      functions (privateLines ++ "int f(void)\r\nchar *g(void)") =
        [⟨"f", true⟩, ⟨"g", false⟩] := by
  have hend : privateLines.toList.getLast? = some '\n' := by decide
  refine ⟨hend, ?_⟩
  rw [functions_exact.1 _ _ (.inr hend)]
  decide +kernel

end Source

end Layering
