import Layering.Text.Lowercase
import Mathlib.Data.List.Basic

/-!
# The lower case of a part of a text

A part of a text is in lower case what it would be by itself, but for the capital sigmas in it:
whether one of them ends a word may depend on what stands around the part. A sigma keeps its form
if the part holds enough of its neighbours (`KeepsForm`).

* `infix_lowercase_iff`: a text occurs in lower case wherever it occurs if all its sigmas keep
  their forms; otherwise there is a text that it occurs in, but not in lower case.
-/

namespace Layering.Text

variable {a b before before' after after' l s t : List Char} {c : Char}

/-- The first character of a text that counts for the form of a sigma. -/
def counted (l : List Char) : Option Char := l.find? (!isCaseIgnorable ·)

theorem casedNext_eq (l : List Char) : casedNext l = (counted l).any isCased := by
  induction l with
  | nil => rfl
  | cons c l ih =>
    rw [casedNext, counted] at *
    cases hc : isCaseIgnorable c with
    | true => simpa [hc] using ih
    | false => simp [hc]

theorem counted_append (l m : List Char) : counted (l ++ m) = (counted l).or (counted m) :=
  List.find?_append

/-- Only what can be ignored is in a text in which no character counts. -/
theorem isCaseIgnorable_of_counted_eq_none (h : counted l = none) (hc : c ∈ l) :
    isCaseIgnorable c := by
  simpa using List.find?_eq_none.1 h c hc

theorem counted_cons_sigma (l : List Char) : counted ('Σ' :: l) = some 'Σ' :=
  List.find?_cons_of_pos (by decide +kernel)

theorem sigma_not_mem (h : counted l = none) : 'Σ' ∉ l := fun hmem => by
  have hsigma : isCaseIgnorable 'Σ' = false := by decide +kernel
  simp [isCaseIgnorable_of_counted_eq_none h hmem] at hsigma

/-! ## Parts of a text -/

/-- Whether a sigma between two texts ends a word. The first text has its last character first. -/
def endsWord (before after : List Char) : Bool := casedNext before && !casedNext after

/-- The lower case of a character between two texts. -/
def lowerBetween (before after : List Char) (c : Char) : List Char :=
  if c = 'Σ' then (if endsWord before after then ['ς'] else ['σ'])
  else if c = 'İ' then ['i', '\u0307']
  else [lowerChar c]

/-- The lower case of a text between two texts. -/
def lowerWithin (before after : List Char) : List Char → List Char
  | [] => []
  | c :: l => lowerBetween before (l ++ after) c ++ lowerWithin (c :: before) after l

theorem lowerAfter_append (before l after : List Char) : lowerAfter before (l ++ after) =
    lowerWithin before after l ++ lowerAfter (l.reverse ++ before) after := by
  induction l generalizing before with
  | nil => rfl
  | cons c l ih =>
    rw [List.cons_append, lowerAfter, ih, lowerWithin, List.reverse_cons]
    simp only [List.append_assoc, List.singleton_append]
    rfl

theorem lowerAfter_eq (before l : List Char) : lowerAfter before l = lowerWithin before [] l := by
  have h := lowerAfter_append before l []
  rwa [List.append_nil, lowerAfter, List.append_nil] at h

theorem lowerWithin_append (before after l m : List Char) : lowerWithin before after (l ++ m) =
    lowerWithin before (m ++ after) l ++ lowerWithin (l.reverse ++ before) after m := by
  induction l generalizing before with
  | nil => rfl
  | cons c l ih => simp [lowerWithin, ih]

theorem lowercase_append (a l b : List Char) : lowercase (a ++ l ++ b) =
    lowerWithin [] (l ++ b) a ++ lowerWithin a.reverse b l ++
      lowerWithin (a ++ l).reverse [] b := by
  rw [lowercase, lowerAfter_eq, lowerWithin_append, lowerWithin_append]
  simp

/-- Only the characters that count matter of the texts around. -/
theorem lowerWithin_congr (hbefore : counted before = counted before')
    (hafter : counted after = counted after') (l : List Char) :
    lowerWithin before after l = lowerWithin before' after' l := by
  induction l generalizing before before' with
  | nil => rfl
  | cons c l ih =>
    have hnext : counted (c :: before) = counted (c :: before') := by
      rw [← List.singleton_append, counted_append, hbefore, ← counted_append, List.singleton_append]
    simp only [lowerWithin, lowerBetween, endsWord, casedNext_eq, counted_append, hbefore, hafter,
      ih hnext]

/-- Nothing matters of the texts around a text without a sigma. -/
theorem lowerWithin_of_not_mem (h : 'Σ' ∉ l) :
    lowerWithin before after l = lowerWithin before' after' l := by
  induction l generalizing before before' with
  | nil => rfl
  | cons c l ih =>
    have hc : c ≠ 'Σ' := (List.ne_of_not_mem_cons h).symm
    rw [lowerWithin, lowerWithin, lowerBetween, lowerBetween, if_neg hc, if_neg hc,
      ih (List.not_mem_of_not_mem_cons h)]

/-! ## Sigmas that keep their forms -/

/-- Two texts around a sigma tell whether it ends a word, whatever stands around the texts: there
is no cased character in front of it, or one behind it, or both texts have a character that
counts. -/
def KeepsForm (before after : List Char) : Prop :=
  (counted before).any (!isCased ·) ∨ (counted after).any isCased ∨
    ((counted before).isSome ∧ (counted after).isSome)

instance (before after : List Char) : Decidable (KeepsForm before after) :=
  inferInstanceAs (Decidable (_ ∨ _ ∨ _))

theorem KeepsForm.endsWord_append (h : KeepsForm before after) (p q : List Char) :
    endsWord (before ++ p) (after ++ q) = endsWord before after := by
  simp only [endsWord, casedNext_eq, counted_append]
  unfold KeepsForm at h
  cases hb : counted before <;> cases ha : counted after <;> simp_all

/-- A sigma that may change its form has nothing that counts in front of it and nothing cased
behind it, or a cased character in front of it and nothing that counts behind it. -/
theorem not_keepsForm (h : ¬ KeepsForm before after) :
    (counted before = none ∧ casedNext after = false) ∨
      (casedNext before ∧ counted after = none) := by
  simp only [casedNext_eq]
  unfold KeepsForm at h
  cases hb : counted before <;> cases ha : counted after <;> simp_all

/-- Each capital sigma of a text keeps its form, whatever the text is part of. -/
def IsSettled (l : List Char) : Prop := ∀ s t, l = s ++ 'Σ' :: t → KeepsForm s.reverse t

theorem isSettled_iff : IsSettled l ↔
    ∀ i < l.length, l[i]? = some 'Σ' → KeepsForm (l.take i).reverse (l.drop (i + 1)) := by
  constructor
  · intro h i hi hsigma
    refine h _ _ ?_
    rw [← (List.getElem_eq_iff hi).2 hsigma, List.getElem_cons_drop, List.take_append_drop]
  · rintro h s t rfl
    have hform := h s.length (by simp) (by simp)
    rwa [List.take_left, ← List.drop_drop, List.drop_left, List.drop_one, List.tail_cons] at hform

instance : DecidablePred IsSettled := fun _ => decidable_of_iff' _ isSettled_iff

theorem isSettled_of_not_mem (h : 'Σ' ∉ l) : IsSettled l := by
  rintro s t rfl
  simp at h

/-- A part whose sigmas keep their forms has the same lower case by itself. -/
theorem IsSettled.lowerWithin_eq (h : IsSettled l) (a b : List Char) :
    lowerWithin a.reverse b l = lowercase l := by
  have hrest : ∀ s t, l = s ++ t →
      lowerWithin (s.reverse ++ a.reverse) b t = lowerWithin s.reverse [] t := by
    intro s t ht
    induction t generalizing s with
    | nil => rfl
    | cons c t ih =>
      have hc : lowerBetween (s.reverse ++ a.reverse) (t ++ b) c = lowerBetween s.reverse t c := by
        by_cases hsigma : c = 'Σ'
        · subst hsigma
          rw [lowerBetween, lowerBetween, (h s t ht).endsWord_append]
        · rw [lowerBetween, lowerBetween, if_neg hsigma, if_neg hsigma]
      have htail := ih (s ++ [c]) (by simpa using ht)
      rw [List.reverse_concat, List.cons_append] at htail
      rw [lowerWithin, lowerWithin, hc, htail, List.append_nil]
  simpa [lowercase, lowerAfter_eq] using hrest [] l rfl

theorem IsSettled.infix_lowercase (h : IsSettled l) (hpath : l <:+: t) :
    lowercase l <:+: lowercase t := by
  obtain ⟨a, b, rfl⟩ := hpath
  rw [lowercase_append, h.lowerWithin_eq]
  exact List.infix_append ..

/-! ## Sigmas that change their forms -/

theorem lowercase_around_sigma (s t : List Char) : lowercase (s ++ 'Σ' :: t) =
    lowerWithin [] ('Σ' :: t) s ++ lowerBetween s.reverse t 'Σ' ++
      lowerWithin ('Σ' :: s.reverse) [] t := by
  rw [lowercase, lowerAfter_eq, lowerWithin_append, lowerWithin]
  simp

/-- A cased letter in front of a sigma makes it end a word. -/
theorem count_lowercase_cons (hs : counted s.reverse = none) (ht : casedNext t = false) :
    (lowercase ('A' :: (s ++ 'Σ' :: t))).count 'σ' < (lowercase (s ++ 'Σ' :: t)).count 'σ' := by
  have hA : casedNext ['A'] = true := by decide +kernel
  have hnot : 'Σ' ∉ s := fun hmem => sigma_not_mem hs (List.mem_reverse.2 hmem)
  have hbefore : casedNext s.reverse = false := by rw [casedNext_eq, hs]; rfl
  have hlong : casedNext (s.reverse ++ ['A']) = true := by
    rw [casedNext_eq, counted_append, hs, Option.none_or, ← casedNext_eq, hA]
  have hfront : lowerWithin [] ('Σ' :: t) ('A' :: s) = 'a' :: lowerWithin [] ('Σ' :: t) s := by
    have hsame : lowerWithin ['A'] ('Σ' :: t) s = lowerWithin [] ('Σ' :: t) s :=
      lowerWithin_of_not_mem hnot
    rw [lowerWithin, hsame]
    rfl
  have htail : lowerWithin ('Σ' :: (s.reverse ++ ['A'])) [] t =
      lowerWithin ('Σ' :: s.reverse) [] t :=
    lowerWithin_congr (by rw [counted_cons_sigma, counted_cons_sigma]) rfl t
  rw [← List.cons_append, lowercase_around_sigma, lowercase_around_sigma, hfront,
    List.reverse_cons, htail]
  simp [lowerBetween, endsWord, hbefore, hlong, ht]

/-- A cased letter behind a sigma makes it end no word. -/
theorem count_lowercase_concat (hs : casedNext s.reverse) (ht : counted t = none) :
    (lowercase (s ++ 'Σ' :: t ++ ['A'])).count 'ς' < (lowercase (s ++ 'Σ' :: t)).count 'ς' := by
  have hA : casedNext ['A'] = true := by decide +kernel
  have hafter : casedNext t = false := by rw [casedNext_eq, ht]; rfl
  have hlong : casedNext (t ++ ['A']) = true := by
    rw [casedNext_eq, counted_append, ht, Option.none_or, ← casedNext_eq, hA]
  have hfront : lowerWithin [] ('Σ' :: (t ++ ['A'])) s = lowerWithin [] ('Σ' :: t) s :=
    lowerWithin_congr rfl (by rw [counted_cons_sigma, counted_cons_sigma]) s
  have htail : lowerWithin ('Σ' :: s.reverse) [] (t ++ ['A']) =
      lowerWithin ('Σ' :: s.reverse) [] t ++ ['a'] := by
    rw [lowerWithin_append, lowerWithin_of_not_mem (sigma_not_mem ht)]
    rfl
  rw [List.append_assoc, List.cons_append, lowercase_around_sigma, lowercase_around_sigma, hfront,
    htail]
  simp [lowerBetween, endsWord, hs, hafter, hlong]

/-- A text occurs in lower case wherever it occurs just if its sigmas keep their forms. -/
theorem infix_lowercase_iff :
    (∀ path, l <:+: path → lowercase l <:+: lowercase path) ↔ IsSettled l := by
  refine ⟨fun h s t hl => ?_, fun h path hpath => h.infix_lowercase hpath⟩
  subst hl
  by_contra hform
  obtain ⟨hs, ht⟩ | ⟨hs, ht⟩ := not_keepsForm hform
  · have hpath := h ('A' :: (s ++ 'Σ' :: t)) (List.suffix_cons ..).isInfix
    exact Nat.not_le_of_lt (count_lowercase_cons hs ht) (hpath.sublist.count_le 'σ')
  · have hpath := h (s ++ 'Σ' :: t ++ ['A']) (List.prefix_append ..).isInfix
    exact Nat.not_le_of_lt (count_lowercase_concat hs ht) (hpath.sublist.count_le 'ς')

end Layering.Text
