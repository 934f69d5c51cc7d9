import Layering.Proofs.Include
import Layering.Proofs.Regex.Anchored
import Layering.Proofs.Regex.Spans

/-!
# The pattern of include directives

Include directives can be found with a pattern (`Source.includePattern`). It matches just where a
number sign stands in front of a directive (`Source.IncludePattern.leads_expr_iff`), and its
matches in a text are the directives that are read from left to right
(`Source.includes_eq_groups`).
-/

namespace Layering.Source

open Regex

/-- The pattern of include directives. -/
def includePattern : String := "#\\s*include\\s+[<\"]([^>\"]+)[>\"]"

theorem IsDirective.exists_front {name d : List Char} (h : IsDirective name d) :
    ∃ front x, d = front ++ (name ++ [x]) := by
  obtain @⟨gap, gap', name, o, x, -, -, -, -, -, -, -⟩ := h
  exact ⟨gap ++ ("include".toList ++ (gap' ++ [o])), x, by simp⟩

namespace IncludePattern

variable {l name : List Char} {c d : Cursor}

/-! ## The expression -/

/-- What the pattern stands for. -/
def expr : Expr :=
  row ([.set (· == '#'), anyNumber blank] ++
    ("include".toList.map (fun x => .set (· == x)) ++
      [oneOrMore blank, .set opensName, .capture (row [oneOrMore (!closesName ·)]),
        .set closesName]))

theorem parse_pattern : parse includePattern = some expr := rfl

/-! ## What it matches -/

/-- The cursor behind a directive, with its name as the group. -/
def behind (c : Cursor) (name : List Char) (n : Nat) : Cursor :=
  ⟨c.place + 1 + n, some (c.place + n - name.length),
    some (c.place + n - name.length, c.place + n)⟩

/-- The expression matches a number sign and the directive behind it. -/
theorem leads_expr_iff : expr.Leads l.toArray c d ↔ ∃ r name n,
    l.drop c.place = '#' :: r ∧ directive? r = some (name, n) ∧ d = behind c name n := by
  rw [expr, leads_row_append]
  constructor
  · rintro ⟨f, ⟨f₁, hsign, _, hgap, rfl⟩, hrest⟩
    obtain ⟨f₂, hkeyword, f₃, hgap', f₄, hopen, f₅, hname, _, hclose, rfl⟩ :=
      leads_row_append.1 hrest
    obtain ⟨gap, hgapBlank, hgap⟩ := leads_blanks_iff.1 hgap
    obtain ⟨gap', hgapNe, hgapBlank', hgap'⟩ := leads_gap_iff.1 hgap'
    obtain ⟨o, ho, hopen⟩ := leads_set_iff.1 hopen
    obtain ⟨name, hne, hnot, ⟨t, ht⟩, rfl⟩ := leads_group_iff.1 hname
    obtain ⟨x, hx, hclose⟩ := leads_set_iff.1 hclose
    have hnot : ∀ x ∈ name, closesName x = false := by simpa using hnot
    have hfront := (leads_char_iff.1 hsign).append
      (hgap.append ((leads_text_iff.1 hkeyword).append (hgap'.append hopen)))
    have hline : l.drop c.place =
        '#' :: (gap ++ ("include".toList ++ (gap' ++ o :: (name ++ [x]))) ++ l.drop d.place) := by
      have hback : t = x :: l.drop d.place := by
        rw [← List.singleton_append, ← hclose.drop_eq, ← List.drop_drop, ← ht, List.drop_left]
      rw [hfront.drop_eq, ← ht, hback]
      simp
    refine ⟨_, name, _, hline, directive?_eq_some_iff.2 ⟨_, _, rfl, rfl,
      .mk hgapBlank hgapBlank' hgapNe ho hne hnot hx⟩, ?_⟩
    obtain ⟨-, rfl⟩ := hclose
    obtain ⟨-, rfl⟩ := hfront
    simp [behind]
    omega
  · rintro ⟨r, name, n, hline, hd, rfl⟩
    obtain ⟨_, r, rfl, rfl, @⟨gap, gap', name, o, x, hgap, hgap', hne', ho, hne, hnot, hx⟩⟩ :=
      directive?_eq_some_iff.1 hd
    obtain ⟨f₄, hfront⟩ :
        ∃ f, Spans l c ('#' :: (gap ++ ("include".toList ++ (gap' ++ [o])))) f :=
      ⟨_, ⟨name ++ x :: r, by simp [hline]⟩, rfl⟩
    have hback : name ++ x :: r = l.drop f₄.place := by
      have hdrop := hfront.drop_eq
      rw [hline] at hdrop
      simpa using hdrop
    obtain ⟨f₁, hsign, hspans⟩ := spans_cons_iff.1 hfront
    obtain ⟨f, hgaps, hspans⟩ := spans_append_iff.1 hspans
    obtain ⟨f₂, hkeyword, hspans⟩ := spans_append_iff.1 hspans
    obtain ⟨f₃, hgaps', hopens⟩ := spans_append_iff.1 hspans
    refine ⟨f, ⟨f₁, leads_char_iff.2 hsign, f, leads_blanks_iff.2 ⟨gap, hgap, hgaps⟩, rfl⟩,
      leads_row_append.2 ⟨f₂, leads_text_iff.2 hkeyword, f₃,
        leads_gap_iff.2 ⟨gap', hne', hgap', hgaps'⟩, f₄, leads_set_iff.2 ⟨o, ho, hopens⟩, _,
        leads_group_iff.2 ⟨name, hne, by simpa using hnot, ⟨_, hback⟩, rfl⟩, _,
        leads_set_iff.2 ⟨x, hx, ⟨r, ?_⟩, ?_⟩, rfl⟩⟩
    · rw [← List.drop_drop, ← hback, List.drop_left]
      rfl
    · obtain ⟨-, rfl⟩ := hfront
      simp [behind]
      omega

/-! ## What is found -/

theorem exists_leads_iff : (∃ d, expr.Leads l.toArray c d) ↔ StartsDirective (l.drop c.place) := by
  constructor
  · rintro ⟨d, hd⟩
    obtain ⟨r, name, n, hline, hread, -⟩ := leads_expr_iff.1 hd
    obtain ⟨t, r, rfl, -, ht⟩ := directive?_eq_some_iff.1 hread
    exact ⟨name, t, r, hline, ht⟩
  · rintro ⟨name, t, r, hline, ht⟩
    have hread : directive? (t ++ r) = some (name, t.length) :=
      directive?_eq_some_iff.2 ⟨t, r, rfl, rfl, ht⟩
    exact ⟨_, leads_expr_iff.2 ⟨_, name, _, hline, hread, rfl⟩⟩

/-- Where no directive starts, none is read. -/
theorem includesAfter_drop {place s : Nat} (hle : place ≤ s)
    (h : ∀ i, place ≤ i → i < s → ¬ StartsDirective (l.drop i)) :
    includesAfter 0 (l.drop place) = includesAfter 0 (l.drop s) := by
  induction s, hle using Nat.le_induction with
  | base => rfl
  | succ s hle ih =>
    rw [ih fun i hi his => h i hi (Nat.lt_succ_of_lt his), ← List.drop_drop]
    have hs := h s hle (Nat.lt_succ_self s)
    cases hline : l.drop s with
    | nil => rfl
    | cons x m => exact includesAfter_cons (hline ▸ hs)

/-- A directive is read where it stands, and its name is the text of the group. -/
theorem includesAfter_behind {r : List Char} {n s : Nat} (hline : l.drop s = '#' :: r)
    (hread : directive? r = some (name, n)) :
    includesAfter 0 (l.drop s) = name :: includesAfter 0 (l.drop (s + 1 + n)) ∧
      s + 1 + n ≤ l.length ∧
      (l.toArray.extract (s + n - name.length) (s + n)).toList = name := by
  obtain ⟨t, r, rfl, rfl, ht⟩ := directive?_eq_some_iff.1 hread
  have hbehind : l.drop (s + 1 + t.length) = r := by
    rw [← List.drop_drop, ← List.drop_drop, hline, List.drop_succ_cons, List.drop_zero,
      List.drop_left]
  have hlength := congrArg List.length hline
  simp only [List.length_drop, List.length_cons, List.length_append] at hlength
  refine ⟨by rw [hline, includesAfter_directive ht, hbehind], by omega, ?_⟩
  obtain ⟨front, x, rfl⟩ := ht.exists_front
  have hstart : s + (front ++ (name ++ [x])).length - name.length = s + ('#' :: front).length := by
    simp
    omega
  have hname : l.drop (s + ('#' :: front).length) = name ++ x :: r := by
    rw [← List.drop_drop, hline]
    simp
  have hsize : s + (front ++ (name ++ [x])).length - (s + ('#' :: front).length) = name.length := by
    simp
    omega
  rw [hstart, List.extract_toArray, List.extract_eq_take_drop, hsize, hname, List.take_left]

theorem not_startsDirective_of_findFrom {place s : Nat} (hplace : place ≤ s) (hs : s ≤ l.length)
    (h : ∀ r ∈ findFrom (ofExpr expr).program (ofExpr expr).start l.toArray
      (l.toArray.size + 1 - place) place ∅, s < r.1) : ¬ StartsDirective (l.drop s) := by
  intro hstart
  obtain ⟨d, hd⟩ := (exists_leads_iff (c := ⟨s, none, none⟩)).2 hstart
  exact not_leads_of_findFrom hplace hs h d hd

/-- The groups of the matches from a place on are the names of the directives there. The fuel lasts
since every match ends behind its start. -/
theorem filterMap_findAll (fuel : Nat) {place : Nat} (last : Option Nat)
    (hplace : place ≤ l.length) (hfuel : l.length < place + fuel) :
    (findAll (ofExpr expr).program (ofExpr expr).start l.toArray fuel place last).filterMap
        (fun found => found.group.map fun span =>
          String.ofList (l.toArray.extract span.1 span.2).toList) =
      (includesAfter 0 (l.drop place)).map String.ofList := by
  induction fuel generalizing place last with
  | zero => omega
  | succ fuel ih =>
    rw [findAll, if_neg (Nat.not_lt.2 hplace : ¬ place > l.toArray.size)]
    split
    · next hnone =>
      have hpassed : ∀ i, place ≤ i → i < l.length → ¬ StartsDirective (l.drop i) := by
        intro i hi hlt
        refine not_startsDirective_of_findFrom hi (Nat.le_of_lt hlt) fun found hfound => ?_
        cases hnone.symm.trans hfound
      rw [includesAfter_drop hplace hpassed, List.drop_length]
      rfl
    · next s found hfind =>
      obtain ⟨hle, d, hd, rfl⟩ := leads_of_findFrom hfind
      obtain ⟨r, name, n, hline, hread, rfl⟩ := leads_expr_iff.1 hd
      have hline : l.drop s = '#' :: r := hline
      obtain ⟨hnames, hend, hname⟩ := includesAfter_behind hline hread
      have hpassed : ∀ i, place ≤ i → i < s → ¬ StartsDirective (l.drop i) := by
        intro i hi hlt
        refine not_startsDirective_of_findFrom hi (by omega) fun found hfound => ?_
        obtain rfl := Option.some.inj (hfind.symm.trans hfound)
        exact hlt
      have hmoves : s ≠ s + 1 + n := by omega
      have hrest := ih (some (s + 1 + n)) hend (by omega)
      rw [includesAfter_drop hle hpassed, hnames]
      simp only [behind, hmoves, decide_false, Bool.false_and, Bool.false_eq_true, if_false,
        List.filterMap_cons, Option.map_some, hname, List.map_cons, hrest]

end IncludePattern

/-- The names of the directives that are read of a text are the groups of the matches of the pattern
in it, from left to right, and its include directives are these names without blanks at their
ends. -/
theorem includes_eq_groups : ∃ x, Regex.ofPattern? includePattern = some x ∧
    ∀ text : String, x.groups text = (includesAfter 0 text.toList).map String.ofList ∧
      includes text = (x.groups text).map fun name => String.ofList (Text.trim name.toList) := by
  refine ⟨ofExpr IncludePattern.expr, ofPattern?_of_parse IncludePattern.parse_pattern,
    fun text => ?_⟩
  have hgroups : (ofExpr IncludePattern.expr).groups text =
      (includesAfter 0 text.toList).map String.ofList :=
    IncludePattern.filterMap_findAll _ none (Nat.zero_le _) (by simp; omega)
  refine ⟨hgroups, ?_⟩
  rw [hgroups, includes, List.map_map]
  exact List.map_congr_left fun name _ => by simp

end Layering.Source
