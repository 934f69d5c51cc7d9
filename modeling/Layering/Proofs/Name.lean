import Layering.Proofs.NormalForm
import Layering.Proofs.Reference

/-!
# Names of units

The names of a unit said without the functions that gather them
(`SourceUnit.mem_names`): its path in normal form, the last component of it, and the
paths below include roots, which are what follows a component that is one
(`Reference.mem_includeNames`). One of them is empty if the path in normal form has no
last component (`SourceUnit.hasName_empty_iff`).
-/

namespace Layering

/-! ## Components -/

namespace Text

variable {α : Type} [DecidableEq α] {sep : α} {p l : List α}

theorem splitOn_of_not_mem (h : sep ∉ l) : splitOn sep l = [l] := by
  induction l with
  | nil => rfl
  | cons c l ih =>
    obtain ⟨hc, hl⟩ := not_or.1 (mt List.mem_cons.2 h)
    rw [splitOn, if_neg (Ne.symm hc), ih hl]

theorem splitOn_append_cons (h : sep ∉ p) (l : List α) :
    splitOn sep (p ++ sep :: l) = p :: splitOn sep l := by
  induction p with
  | nil => simp [splitOn]
  | cons c p ih =>
    obtain ⟨hc, hp⟩ := not_or.1 (mt List.mem_cons.2 h)
    rw [List.cons_append, splitOn, if_neg (Ne.symm hc), ih hp]

/-- What holds no separator lengthens the last piece. -/
theorem splitOn_append (h : sep ∉ p) (l : List α) :
    ∃ qs q, splitOn sep l = qs ++ [q] ∧ splitOn sep (l ++ p) = qs ++ [q ++ p] := by
  induction l with
  | nil => exact ⟨[], [], rfl, splitOn_of_not_mem h⟩
  | cons c l ih =>
    obtain ⟨qs, q, hl, hr⟩ := ih
    rw [List.cons_append, splitOn, splitOn, hl, hr]
    split
    · exact ⟨[] :: qs, q, rfl, rfl⟩
    · cases qs with
      | nil => exact ⟨[], c :: q, rfl, rfl⟩
      | cons q' qs => exact ⟨(c :: q') :: qs, q, rfl, rfl⟩

/-- A text is cut at its first separator in one way. -/
theorem eq_of_append_cons_eq {q m : List α} (hp : sep ∉ p) (hq : sep ∉ q)
    (h : p ++ sep :: l = q ++ sep :: m) : p = q ∧ l = m := by
  have hsplit := congrArg (splitOn sep) h
  rw [splitOn_append_cons hp, splitOn_append_cons hq] at hsplit
  obtain rfl := (List.cons.inj hsplit).1
  exact ⟨rfl, (List.cons.inj (List.append_cancel_left h)).2⟩

end Text

namespace Reference

variable {roots : List String} {l p : List Char} {n path : String}

/-- Components that are put together again. -/
theorem join_splitOn (l : List Char) : join (Text.splitOn '/' l) = l := by
  by_cases h : '/' ∈ l
  · obtain ⟨p, r, rfl, hp⟩ := List.eq_append_cons_of_mem h
    have hr := join_splitOn r
    rw [Text.splitOn_append_cons hp]
    cases hs : Text.splitOn '/' r with
    | nil => exact absurd hs (Text.splitOn_ne_nil _ _)
    | cons q ps =>
      rw [hs] at hr
      simp [join, hr]
  · rw [Text.splitOn_of_not_mem h, join]
termination_by l.length

theorem namesBelow_cons_splitOn (roots : List String) (p r : List Char) :
    namesBelow roots (p :: Text.splitOn '/' r) =
      (if roots.contains (String.ofList p) then [String.ofList r] else []) ++
        namesBelow roots (Text.splitOn '/' r) := by
  have hr := join_splitOn r
  cases hs : Text.splitOn '/' r with
  | nil => exact absurd hs (Text.splitOn_ne_nil _ _)
  | cons q ps =>
    rw [hs] at hr
    rw [namesBelow, hr]

/-- A path lies below an include root: a component of it is one, and the name is
what follows. -/
def BelowRoot (roots : List String) (path name : String) : Prop :=
  ∃ dir root : String, root ∈ roots ∧ '/' ∉ root.toList ∧
    (dir = "" ∨ dir.toList.getLast? = some '/') ∧ path = dir ++ root ++ "/" ++ name

/-- A directory in front of a part of a path starts with the first component of the path. -/
theorem dir_cons {dir t r : List Char} (hp : '/' ∉ p) (hdir : dir.getLast? = some '/')
    (h : p ++ '/' :: r = dir ++ t) :
    ∃ dir', dir = p ++ '/' :: dir' ∧ (dir' = [] ∨ dir'.getLast? = some '/') ∧ r = dir' ++ t := by
  have hmem : '/' ∈ dir := List.mem_of_getLast? hdir
  obtain ⟨q, dir', rfl, hq⟩ := List.eq_append_cons_of_mem hmem
  rw [List.append_assoc, List.cons_append] at h
  obtain ⟨rfl, rfl⟩ := Text.eq_of_append_cons_eq hp hq h
  refine ⟨dir', rfl, ?_, rfl⟩
  cases dir' with
  | nil => exact .inl rfl
  | cons c d =>
    rw [List.getLast?_append_cons, List.getLast?_cons_cons] at hdir
    exact .inr hdir

theorem mem_namesBelow (l : List Char) : n ∈ namesBelow roots (Text.splitOn '/' l) ↔
    ∃ dir root : List Char, String.ofList root ∈ roots ∧ '/' ∉ root ∧
      (dir = [] ∨ dir.getLast? = some '/') ∧ l = dir ++ (root ++ '/' :: n.toList) := by
  by_cases h : '/' ∈ l
  · obtain ⟨p, r, rfl, hp⟩ := List.eq_append_cons_of_mem h
    have hr := mem_namesBelow r
    rw [Text.splitOn_append_cons hp, namesBelow_cons_splitOn, List.mem_append, hr]
    constructor
    · rintro (hn | ⟨dir, root, hroot, hslash, hdir, rfl⟩)
      · split at hn
        · next hroot =>
          obtain rfl := List.mem_singleton.1 hn
          exact ⟨[], p, by simpa using hroot, hp, .inl rfl, by simp⟩
        · exact absurd hn List.not_mem_nil
      · refine ⟨p ++ '/' :: dir, root, hroot, hslash, .inr ?_, by simp⟩
        rcases hdir with rfl | hdir
        · exact List.getLast?_concat
        · rw [List.getLast?_append, List.getLast?_cons, hdir]
          rfl
    · rintro ⟨dir, root, hroot, hslash, rfl | hdir, he⟩
      · obtain ⟨rfl, rfl⟩ := Text.eq_of_append_cons_eq hp hslash he
        left
        rw [if_pos (by simpa using hroot), String.ofList_toList]
        exact List.mem_singleton_self n
      · obtain ⟨dir', -, hdir', he⟩ := dir_cons hp hdir he
        exact .inr ⟨dir', root, hroot, hslash, hdir', he⟩
  · rw [Text.splitOn_of_not_mem h]
    refine iff_of_false List.not_mem_nil ?_
    rintro ⟨dir, root, -, -, -, rfl⟩
    exact h (by simp)
termination_by l.length

/-- The names below include roots are what follows a component that is one. -/
theorem mem_includeNames : n ∈ includeNames roots path ↔ BelowRoot roots path n := by
  rw [includeNames, mem_namesBelow]
  constructor
  · rintro ⟨dir, root, hroot, hslash, hdir, he⟩
    refine ⟨String.ofList dir, String.ofList root, hroot, ?_, ?_, ?_⟩
    · rwa [String.toList_ofList]
    · rwa [String.ofList_eq_empty_iff, String.toList_ofList]
    · apply String.toList_inj.1
      simp [he]
  · rintro ⟨dir, root, hroot, hslash, hdir, rfl⟩
    refine ⟨dir.toList, root.toList, ?_, hslash, ?_, by simp⟩
    · rwa [String.ofList_toList]
    · rwa [String.toList_eq_nil_iff]

/-- No path is its own name below an include root. -/
theorem BelowRoot.ne (h : BelowRoot roots path n) : n ≠ path := by
  obtain ⟨dir, root, -, -, -, he⟩ := h
  intro hn
  have hlen := congrArg String.length (hn.trans he)
  simp only [String.length_append] at hlen
  have hslash : "/".length = 1 := rfl
  omega

end Reference

/-! ## Names -/

namespace SourceUnit

open Reference

variable {u : SourceUnit} {roots : List String} {n : String}

/-- The names of a unit. -/
inductive HasName (roots : List String) (u : SourceUnit) : String → Prop
  | path : HasName roots u u.normalPath
  | basename : HasName roots u (Path.basename u.normalPath)
  | below {n : String} (h : BelowRoot roots u.normalPath n) : HasName roots u n

/-- The names that are gathered for a unit are its names. -/
theorem mem_names : n ∈ u.names roots ↔ u.HasName roots n := by
  rw [names, List.mem_append, List.mem_cons, mem_includeNames]
  constructor
  · rintro ((rfl | h) | h)
    · exact .path
    · split at h
      · exact absurd h List.not_mem_nil
      · obtain rfl := List.mem_singleton.1 h
        exact .basename
    · exact .below h
  · intro h
    cases h with
    | path => exact .inl (.inl rfl)
    | basename =>
      left
      split
      · next h => exact .inl h
      · exact .inr (List.mem_singleton_self _)
    | below h => exact .inr h

/-- A unit has an empty name if its path in normal form has no last component. -/
theorem hasName_empty_iff : u.HasName roots "" ↔ Path.basename u.normalPath = "" := by
  constructor
  · generalize hn : "" = n
    intro h
    cases h with
    | path => rw [← hn]; rfl
    | basename => rfl
    | below h =>
      obtain ⟨dir, root, -, -, -, he⟩ := h
      subst hn
      rw [Path.basename_eq_empty_iff, Path.lastComponent_eq_nil_iff, he]
      simp [Path.isSeparator]
  · intro h
    rw [← h]
    exact .basename

end SourceUnit

end Layering
