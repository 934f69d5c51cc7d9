import Layering.Reference
import Mathlib.Data.List.Infix

/-!
# Normal forms

What becomes of a reference in its normal form:

* `Reference.basename_normalize_eq_empty_iff`: the normal form has a last component
  if what stands between the delimiters has;
* `Reference.normalize_eq_self_iff`: nothing becomes of it if its ends are neither
  blanks nor delimiters, it has no backslash, and `./` does not stand in front.
-/

namespace Layering

/-! ## Ends of a text -/

namespace Text

variable {p : Char → Bool} {l : List Char}

theorem head?_false_of_dropWhile (h : l.dropWhile p = l) : ∀ c ∈ l.head?, p c = false := by
  cases l with
  | nil => simp
  | cons a l =>
    intro c hc
    obtain rfl := Option.mem_some_iff.1 hc
    by_contra hp
    have hp : p a = true := by simpa using hp
    have hle := (List.dropWhile_suffix p (l := l)).length_le
    rw [List.dropWhile_cons, if_pos hp] at h
    rw [h, List.length_cons] at hle
    omega

theorem dropEndWhile_isPrefix (p : Char → Bool) (l : List Char) : dropEndWhile p l <+: l := by
  have h := List.reverse_prefix.2 (List.dropWhile_suffix p (l := l.reverse))
  rwa [List.reverse_reverse] at h

theorem stripWhile_isInfix (p : Char → Bool) (l : List Char) : stripWhile p l <:+: l :=
  (dropEndWhile_isPrefix p _).isInfix.trans (List.dropWhile_suffix p).isInfix

/-- Nothing is taken off a text if neither end is of the class. -/
theorem stripWhile_eq_self_iff : stripWhile p l = l ↔
    (∀ c ∈ l.head?, p c = false) ∧ ∀ c ∈ l.getLast?, p c = false := by
  refine ⟨fun h => ?_, fun h => stripWhile_eq_self h.1 h.2⟩
  have hle := (dropEndWhile_isPrefix p (l.dropWhile p)).length_le
  rw [stripWhile] at h
  rw [h] at hle
  have hdrop : l.dropWhile p = l := (List.dropWhile_suffix p).eq_of_length_le hle
  rw [hdrop, dropEndWhile, List.reverse_eq_iff] at h
  refine ⟨head?_false_of_dropWhile hdrop, ?_⟩
  rw [List.getLast?_eq_head?_reverse]
  exact head?_false_of_dropWhile h

end Text

/-! ## Last components -/

namespace Path

variable {l : List Char}

/-- There is a last component unless the path is empty or ends with a separator. -/
theorem lastComponent_eq_nil_iff :
    lastComponent l = [] ↔ ∀ c ∈ l.getLast?, isSeparator c := by
  rw [lastComponent, List.reverse_eq_nil_iff, List.getLast?_eq_head?_reverse]
  cases l.reverse with
  | nil => simp
  | cons c r => cases hc : isSeparator c <;> simp [hc]

theorem basename_eq_empty_iff {p : String} : basename p = "" ↔ lastComponent p.toList = [] := by
  rw [basename, String.ofList_eq_empty_iff]

end Path

/-! ## Normal forms -/

namespace Reference

/-- A reference without its delimiters and the blanks around them. -/
def bare (s : String) : List Char := Text.trim (Text.stripWhile isDelimiter (Text.trim s.toList))

/-- A separator in its normal form. -/
def slash (c : Char) : Char := if c = '\\' then '/' else c

theorem normalize_eq (s : String) :
    normalize s = String.ofList (dropHere ((bare s).map slash)) := rfl

theorem slash_ne_backslash (c : Char) : slash c ≠ '\\' := by
  rw [slash]
  split
  · decide
  · next h => exact h

theorem isSeparator_slash (c : Char) : Path.isSeparator (slash c) = Path.isSeparator c := by
  rw [slash]
  split
  · next h => rw [h]; rfl
  · rfl

/-- The last component stays when references to the current directory are taken off. -/
theorem lastComponent_dropHere (l : List Char) :
    Path.lastComponent (dropHere l) = [] ↔ Path.lastComponent l = [] := by
  fun_induction dropHere l with
  | case1 l ih =>
    rw [ih, Path.lastComponent_eq_nil_iff, Path.lastComponent_eq_nil_iff]
    cases l with
    | nil => simp [Path.isSeparator]
    | cons c l => rw [List.getLast?_cons_cons, List.getLast?_cons_cons]
  | case2 l => exact Iff.rfl

theorem lastComponent_map_slash (l : List Char) :
    Path.lastComponent (l.map slash) = [] ↔ Path.lastComponent l = [] := by
  rw [Path.lastComponent_eq_nil_iff, Path.lastComponent_eq_nil_iff, List.getLast?_map]
  cases l.getLast? with
  | none => simp
  | some c => simp [isSeparator_slash]

/-- The normal form has a last component if what stands between the delimiters has one. -/
theorem basename_normalize_eq_empty_iff {s : String} :
    Path.basename (normalize s) = "" ↔ Path.lastComponent (bare s) = [] := by
  rw [Path.basename_eq_empty_iff, normalize_eq, String.toList_ofList, lastComponent_dropHere,
    lastComponent_map_slash]

theorem dropHere_suffix (l : List Char) : dropHere l <:+ l := by
  fun_induction dropHere l with
  | case1 l ih => exact ih.trans ⟨['.', '/'], rfl⟩
  | case2 l => exact List.suffix_rfl

theorem dropHere_eq_self_iff {l : List Char} : dropHere l = l ↔ ¬ ['.', '/'] <+: l := by
  fun_induction dropHere l with
  | case1 l ih =>
    have hle := (dropHere_suffix l).length_le
    refine iff_of_false (fun h => ?_) (fun h => h ⟨l, rfl⟩)
    rw [h, List.length_cons, List.length_cons] at hle
    omega
  | case2 l hl =>
    refine iff_of_true rfl ?_
    rintro ⟨r, rfl⟩
    exact hl r rfl

/-- A reference in normal form: its ends are neither blanks nor delimiters, it has no
backslash, and no reference to the current directory in front. -/
structure IsNormal (s : String) : Prop where
  head : ∀ c ∈ s.toList.head?, ¬ Text.isBlank c ∧ ¬ isDelimiter c
  last : ∀ c ∈ s.toList.getLast?, ¬ Text.isBlank c ∧ ¬ isDelimiter c
  noBackslash : '\\' ∉ s.toList
  notHere : ¬ ['.', '/'] <+: s.toList

theorem bare_isInfix (s : String) : bare s <:+: s.toList :=
  (Text.stripWhile_isInfix _ _).trans
    ((Text.stripWhile_isInfix _ _).trans (Text.stripWhile_isInfix _ _))

theorem bare_eq_self_iff {s : String} : bare s = s.toList ↔
    (∀ c ∈ s.toList.head?, ¬ Text.isBlank c ∧ ¬ isDelimiter c) ∧
      ∀ c ∈ s.toList.getLast?, ¬ Text.isBlank c ∧ ¬ isDelimiter c := by
  constructor
  · intro h
    have hlen := congrArg List.length h
    have hinner : (bare s).length ≤ (Text.stripWhile isDelimiter (Text.trim s.toList)).length :=
      (Text.stripWhile_isInfix _ _).length_le
    have hmiddle := (Text.stripWhile_isInfix isDelimiter (Text.trim s.toList)).length_le
    have houter : Text.trim s.toList <:+: s.toList := Text.stripWhile_isInfix _ _
    -- Something taken off anywhere would make the text shorter.
    have htrim : Text.trim s.toList = s.toList := houter.eq_of_length_le (by omega)
    rw [htrim] at hinner
    have hstrip : Text.stripWhile isDelimiter s.toList = s.toList :=
      (Text.stripWhile_isInfix _ _).eq_of_length_le (by omega)
    obtain ⟨hblank, hblank'⟩ := Text.stripWhile_eq_self_iff.1 htrim
    obtain ⟨hdelimiter, hdelimiter'⟩ := Text.stripWhile_eq_self_iff.1 hstrip
    simp only [Bool.not_eq_true]
    exact ⟨fun c hc => ⟨hblank c hc, hdelimiter c hc⟩, fun c hc => ⟨hblank' c hc, hdelimiter' c hc⟩⟩
  · rintro ⟨hhead, hlast⟩
    simp only [Bool.not_eq_true] at hhead hlast
    have htrim : Text.trim s.toList = s.toList :=
      Text.trim_eq_self (fun c hc => (hhead c hc).1) fun c hc => (hlast c hc).1
    have hstrip : Text.stripWhile isDelimiter s.toList = s.toList :=
      Text.stripWhile_eq_self (fun c hc => (hhead c hc).2) fun c hc => (hlast c hc).2
    rw [bare, htrim, hstrip, htrim]

theorem map_slash_eq_self_iff {l : List Char} : l.map slash = l ↔ '\\' ∉ l := by
  constructor
  · intro h hmem
    rw [← h] at hmem
    obtain ⟨c, -, hc⟩ := List.mem_map.1 hmem
    exact slash_ne_backslash c hc
  · intro hmem
    refine (List.map_congr_left fun c hc => ?_).trans (List.map_id l)
    exact if_neg fun he : c = '\\' => hmem (he ▸ hc)

/-- The references in normal form are those that are their own normal form. -/
theorem normalize_eq_self_iff {s : String} : normalize s = s ↔ IsNormal s := by
  rw [normalize_eq, ← String.toList_inj, String.toList_ofList]
  constructor
  · intro h
    have hlen := congrArg List.length h
    have hdrop := dropHere_suffix ((bare s).map slash)
    have hle := hdrop.length_le
    rw [List.length_map] at hle
    have hbare : bare s = s.toList := (bare_isInfix s).eq_of_length_le (by omega)
    rw [hbare] at h hdrop
    have hmap : s.toList.map slash = s.toList := by
      have heq := hdrop.eq_of_length_le (by rw [h, List.length_map])
      exact heq.symm.trans h
    rw [hmap] at h
    obtain ⟨hhead, hlast⟩ := bare_eq_self_iff.1 hbare
    exact ⟨hhead, hlast, map_slash_eq_self_iff.1 hmap, dropHere_eq_self_iff.1 h⟩
  · intro h
    rw [bare_eq_self_iff.2 ⟨h.head, h.last⟩, map_slash_eq_self_iff.2 h.noBackslash,
      dropHere_eq_self_iff.2 h.notHere]

end Reference

end Layering
