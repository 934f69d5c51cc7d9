import Layering.Path
import Mathlib.Data.List.Infix
import Mathlib.Data.List.TakeWhile

/-!
# Extensions of paths

A path is split at the last dot of its last component, if something stands before
that dot (`Path.split?_eq_some_iff`). So an extension without dots and separators
can be put in the place of another (`Path.stem_withExtension`).
-/

namespace Layering.Path

variable {p s e : List Char}

/-- Whether a text can stand as an extension: it has no dots and no separators. -/
def IsExtension (e : List Char) : Prop := ∀ c ∈ e, c ≠ '.' ∧ ¬ isSeparator c

instance (e : List Char) : Decidable (IsExtension e) :=
  List.decidableBAll (fun c => c ≠ '.' ∧ ¬ isSeparator c) e

theorem lastComponent_ne_nil {c : Char} {l : List Char} (h : s.reverse = c :: l)
    (hc : ¬ isSeparator c) : lastComponent s ≠ [] := by
  rw [lastComponent, h, ne_eq, List.reverse_eq_nil_iff]
  simp [hc]

theorem takeWhile_reverse_append (he : IsExtension e) (s : List Char) :
    (s ++ '.' :: e).reverse.takeWhile (!isSeparator ·) =
      e.reverse ++ '.' :: (lastComponent s).reverse := by
  have hall : ∀ c ∈ e.reverse, (!isSeparator c) = true := fun c hc => by
    simpa using (he c (List.mem_reverse.1 hc)).2
  have hdot : (!isSeparator '.') = true := by decide
  rw [List.reverse_append, List.reverse_cons, List.append_assoc, List.singleton_append,
    List.takeWhile_append_of_pos hall, List.takeWhile_cons, if_pos hdot, lastComponent,
    List.reverse_reverse]

theorem takeWhile_append_dot (he : IsExtension e) (l : List Char) :
    (e.reverse ++ '.' :: l).takeWhile (· != '.') = e.reverse := by
  have hall : ∀ c ∈ e.reverse, (c != '.') = true := fun c hc => by
    simpa using (he c (List.mem_reverse.1 hc)).1
  rw [List.takeWhile_append_of_pos hall, List.takeWhile_cons_of_neg (by simp), List.append_nil]

theorem take_append_dot (s e : List Char) :
    (s ++ '.' :: e).take ((s ++ '.' :: e).length - (e.length + 1)) = s := by
  have hlen : (s ++ '.' :: e).length - (e.length + 1) = s.length := by simp
  rw [hlen, List.take_left]

/-- A path is split at the last dot of its last component, unless nothing stands
before it. -/
theorem split?_eq_some_iff : split? p = some (s, e) ↔
    p = s ++ '.' :: e ∧ lastComponent s ≠ [] ∧ IsExtension e := by
  constructor
  · intro h
    unfold split? at h
    extract_lets name ext at h
    split at h
    next c l hdrop =>
      have hname : name = ext ++ '.' :: c :: l := by
        rw [← hdrop]
        exact (List.prefix_iff_eq_append.1 (List.takeWhile_prefix _)).symm
      have hsep : ∀ x ∈ name, ¬ isSeparator x := fun x hx => by
        simpa using List.mem_takeWhile_imp hx
      have hdot : ∀ x ∈ ext, x ≠ '.' := fun x hx => by
        simpa using List.mem_takeWhile_imp hx
      obtain ⟨rest, hrest⟩ : name <+: p.reverse := List.takeWhile_prefix _
      have hp : p = (rest.reverse ++ (c :: l).reverse) ++ '.' :: ext.reverse := by
        rw [← List.reverse_reverse p, ← hrest, hname]
        simp
      have htake := take_append_dot (rest.reverse ++ (c :: l).reverse) ext.reverse
      rw [← hp, List.length_reverse] at htake
      obtain ⟨rfl, rfl⟩ := Prod.mk.inj (Option.some_inj.1 h)
      rw [htake]
      refine ⟨hp, lastComponent_ne_nil (c := c) (l := l ++ rest) (by simp) (hsep c (by simp [hname])),
        fun x hx => ?_⟩
      have hx := List.mem_reverse.1 hx
      exact ⟨hdot x hx, hsep x (hname ▸ List.mem_append_left _ hx)⟩
    next => cases h
  · rintro ⟨rfl, hs, he⟩
    obtain ⟨c, l, hcl⟩ := List.exists_cons_of_ne_nil (mt List.reverse_eq_nil_iff.1 hs)
    have htake : (s ++ '.' :: e).take ((s ++ '.' :: e).length - (e.reverse.length + 1)) = s := by
      rw [List.length_reverse, take_append_dot]
    simp only [split?, takeWhile_reverse_append he, takeWhile_append_dot he, List.drop_left, hcl,
      htake, List.reverse_reverse]

/-- A path is its stem with its extension. -/
theorem eq_withExtension {path ext : String} (h : extension? path = some ext) :
    path = withExtension (stem path) ext := by
  obtain ⟨⟨s, e⟩, hs, rfl⟩ := Option.map_eq_some_iff.1 h
  have hstem : stem path = String.ofList s := by rw [stem, hs]
  apply String.toList_inj.1
  simp [withExtension, hstem, (split?_eq_some_iff.1 hs).1]

theorem exists_split?_withExtension {path ext : String} (h : (extension? path).isSome)
    (he : IsExtension ext.toList) : ∃ s, stem path = String.ofList s ∧
      split? (withExtension (stem path) ext).toList = some (s, ext.toList) := by
  obtain ⟨⟨s, e⟩, hs⟩ := Option.isSome_iff_exists.1 (Option.isSome_map ▸ h)
  have hstem : stem path = String.ofList s := by rw [stem, hs]
  refine ⟨s, hstem, ?_⟩
  rw [withExtension, hstem, String.toList_append, String.toList_append, String.toList_ofList,
    List.append_assoc]
  exact split?_eq_some_iff.2 ⟨rfl, (split?_eq_some_iff.1 hs).2.1, he⟩

/-- Another extension can be put in the place of that of a path. -/
theorem stem_withExtension {path ext : String} (h : (extension? path).isSome)
    (he : IsExtension ext.toList) : stem (withExtension (stem path) ext) = stem path := by
  obtain ⟨s, hstem, hsplit⟩ := exists_split?_withExtension h he
  rw [stem, hsplit, hstem]

theorem extension?_withExtension {path ext : String} (h : (extension? path).isSome)
    (he : IsExtension ext.toList) : extension? (withExtension (stem path) ext) = some ext := by
  obtain ⟨s, -, hsplit⟩ := exists_split?_withExtension h he
  rw [extension?, hsplit, Option.map_some, String.ofList_toList]

end Layering.Path
