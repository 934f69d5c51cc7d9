import Layering.Text.Blank
import Mathlib.Data.List.TakeWhile

/-!
# Runs of characters of a class

A text is cut where its class changes: at the first character that is not of a class
(`Text.forall_or_exists_first`), and into its maximal runs outside of a class
(`Text.splitRuns_eq_cons_iff`).
-/

namespace Layering.Text

variable {p : Char → Bool} {gap l m w : List Char} {ws : List (List Char)} {c : Char}

/-! ## The first character of a class -/

/-- A text is of a class up to its end or up to a first character that is not. -/
theorem forall_or_exists_first (p : Char → Bool) (l : List Char) :
    (∀ x ∈ l, p x) ∨ ∃ m c r, l = m ++ c :: r ∧ (∀ x ∈ m, p x) ∧ p c = false := by
  induction l with
  | nil => exact .inl nofun
  | cons a l ih =>
    cases ha : p a with
    | false => exact .inr ⟨[], a, l, rfl, nofun, ha⟩
    | true =>
      obtain hall | ⟨m, c, r, rfl, hm, hc⟩ := ih
      · exact .inl (List.forall_mem_cons.2 ⟨ha, hall⟩)
      · exact .inr ⟨a :: m, c, r, rfl, List.forall_mem_cons.2 ⟨ha, hm⟩, hc⟩

theorem dropWhile_append_cons (h : ∀ x ∈ m, p x) (hc : p c = false) (l : List Char) :
    (m ++ c :: l).dropWhile p = c :: l := by
  rw [List.dropWhile_append_of_pos h, List.dropWhile_cons_of_neg (by simp [hc])]

theorem takeWhile_append_cons (h : ∀ x ∈ m, p x) (hc : p c = false) (l : List Char) :
    (m ++ c :: l).takeWhile p = m := by
  rw [List.takeWhile_append_of_pos h, List.takeWhile_cons_of_neg (by simp [hc]), List.append_nil]

theorem takeWhile_reverse_eq_nil (hl : ∀ x ∈ l.getLast?, p x = false) :
    l.reverse.takeWhile p = [] := by
  rw [List.getLast?_eq_head?_reverse] at hl
  cases hrev : l.reverse with
  | nil => rfl
  | cons c r =>
    have hc : p c = false := hl c (by rw [hrev, List.head?_cons, Option.mem_def])
    exact List.takeWhile_cons_of_neg (by simp [hc])

/-- What is taken off the end of a text goes back to a character that is not of the class. -/
theorem dropEndWhile_append (hl : ∀ x ∈ l.getLast?, p x = false) (hm : ∀ x ∈ m, p x) :
    dropEndWhile p (l ++ m) = l := by
  have hrest : l.reverse.dropWhile p = l.reverse := by
    have happend : l.reverse.takeWhile p ++ l.reverse.dropWhile p = l.reverse :=
      List.takeWhile_append_dropWhile
    rwa [takeWhile_reverse_eq_nil hl, List.nil_append] at happend
  rw [dropEndWhile, List.reverse_append, List.dropWhile_append_of_pos (by simpa using hm), hrest,
    List.reverse_reverse]

/-! ## Maximal runs -/

theorem splitRuns_append_of_forall (h : ∀ x ∈ w, p x = false) (run l : List Char) :
    splitRuns p run (w ++ l) = splitRuns p (w.reverse ++ run) l := by
  induction w generalizing run with
  | nil => rfl
  | cons a w ih =>
    obtain ⟨ha, hw⟩ := List.forall_mem_cons.1 h
    rw [List.cons_append, splitRuns, if_neg (by simp [ha]), ih hw, List.reverse_cons]
    simp

/-- No run goes on over a separator. -/
theorem splitRuns_append_cons (hc : p c) (run l m : List Char) :
    splitRuns p run (l ++ c :: m) = splitRuns p run l ++ splitRuns p [] m := by
  induction l generalizing run with
  | nil =>
    simp only [List.nil_append, splitRuns, if_pos hc]
    split <;> rfl
  | cons a l ih =>
    rw [List.cons_append, splitRuns, splitRuns]
    split
    · split
      · exact ih []
      · rw [ih [], List.cons_append]
    · exact ih (a :: run)

theorem splitRuns_gap_append (h : ∀ x ∈ gap, p x) (l : List Char) :
    splitRuns p [] (gap ++ l) = splitRuns p [] l := by
  induction gap with
  | nil => rfl
  | cons a gap ih =>
    obtain ⟨ha, hgap⟩ := List.forall_mem_cons.1 h
    rw [List.cons_append, splitRuns, if_pos ha]
    exact ih hgap

theorem splitRuns_gap (h : ∀ x ∈ gap, p x) : splitRuns p [] gap = [] := by
  have hnil := splitRuns_gap_append h []
  rwa [List.append_nil] at hnil

/-- A run in front of a separator or the end of the text. -/
theorem splitRuns_run_append (hne : w ≠ []) (h : ∀ x ∈ w, p x = false)
    (hl : ∀ x ∈ l.head?, p x) : splitRuns p [] (w ++ l) = w :: splitRuns p [] l := by
  have hw : splitRuns p [] w = [w] := by
    have hrun := splitRuns_append_of_forall h [] []
    rw [List.append_nil, List.append_nil] at hrun
    rw [hrun, splitRuns, if_neg (by simpa using hne), List.reverse_reverse]
  cases l with
  | nil => rw [List.append_nil, hw, splitRuns]; rfl
  | cons c m =>
    have hc : p c := hl c rfl
    rw [splitRuns_append_cons hc, hw, splitRuns, if_pos hc]
    rfl

/-- A text is of a class or has a first maximal run outside of it. -/
theorem forall_or_exists_run (p : Char → Bool) (l : List Char) :
    (∀ x ∈ l, p x) ∨ ∃ gap w r, l = gap ++ (w ++ r) ∧ (∀ x ∈ gap, p x) ∧ w ≠ [] ∧
      (∀ x ∈ w, p x = false) ∧ ∀ x ∈ r.head?, p x := by
  obtain hall | ⟨gap, c, r, rfl, hgap, hc⟩ := forall_or_exists_first p l
  · exact .inl hall
  refine .inr ?_
  obtain hall | ⟨w, d, r', rfl, hw, hd⟩ := forall_or_exists_first (!p ·) r
  · exact ⟨gap, c :: r, [], by simp, hgap, by simp, by simpa [hc] using hall, nofun⟩
  · exact ⟨gap, c :: w, d :: r', by simp, hgap, by simp, by simpa [hc] using hw, by simpa using hd⟩

theorem splitRuns_eq_nil_iff : splitRuns p [] l = [] ↔ ∀ x ∈ l, p x := by
  refine ⟨fun h => ?_, splitRuns_gap⟩
  obtain hall | ⟨gap, w, r, rfl, hgap, hne, hw, hr⟩ := forall_or_exists_run p l
  · exact hall
  · rw [splitRuns_gap_append hgap, splitRuns_run_append hne hw hr] at h
    cases h

/-- The first run stands behind separators, and in front of one or at the end of the text. -/
theorem splitRuns_eq_cons_iff : splitRuns p [] l = w :: ws ↔ ∃ gap r, l = gap ++ (w ++ r) ∧
    (∀ x ∈ gap, p x) ∧ w ≠ [] ∧ (∀ x ∈ w, p x = false) ∧ (∀ x ∈ r.head?, p x) ∧
    splitRuns p [] r = ws := by
  constructor
  · intro h
    obtain hall | ⟨gap, w', r, rfl, hgap, hne, hw, hr⟩ := forall_or_exists_run p l
    · rw [splitRuns_gap hall] at h
      cases h
    · rw [splitRuns_gap_append hgap, splitRuns_run_append hne hw hr] at h
      obtain ⟨rfl, rfl⟩ := List.cons.inj h
      exact ⟨gap, r, rfl, hgap, hne, hw, hr, rfl⟩
  · rintro ⟨gap, r, rfl, hgap, hne, hw, hr, rfl⟩
    rw [splitRuns_gap_append hgap, splitRuns_run_append hne hw hr]

end Layering.Text
