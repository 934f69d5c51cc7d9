import Layering.Proofs.Regex.Leads
import Mathlib.Data.List.Infix

/-!
# Texts that sets of characters match

A set of characters matches one of them, and its repetitions match runs of them
(`Regex.leads_runs_iff`), which leave the group as it is. The group of a run is its text
(`Regex.leads_group_iff`).
-/

namespace Layering.Regex

variable {l u v w : List Char} {c d f : Cursor} {s : CharSet} {n : Nat}

/-- Between two cursors there is a text, and the group stays as it is. -/
def Spans (l : List Char) (c : Cursor) (w : List Char) (d : Cursor) : Prop :=
  w <+: l.drop c.place ∧ d = { c with place := c.place + w.length }

theorem spans_nil_iff : Spans l c [] d ↔ d = c := by
  simp [Spans]

theorem spans_append_iff : Spans l c (u ++ v) d ↔ ∃ f, Spans l c u f ∧ Spans l f v d := by
  simp only [Spans, List.length_append, ← Nat.add_assoc]
  constructor
  · rintro ⟨h, rfl⟩
    refine ⟨_, ⟨(List.prefix_append u v).trans h, rfl⟩, ?_, rfl⟩
    obtain ⟨r, hr⟩ := h
    refine ⟨r, ?_⟩
    rw [← List.drop_drop, ← hr, List.append_assoc, List.drop_left]
  · rintro ⟨f, ⟨⟨r, hr⟩, rfl⟩, h, rfl⟩
    refine ⟨?_, rfl⟩
    rw [← List.drop_drop, ← hr, List.drop_left] at h
    rw [← hr]
    exact (List.prefix_append_right_inj u).2 h

theorem spans_cons_iff {x : Char} :
    Spans l c (x :: w) d ↔ ∃ f, Spans l c [x] f ∧ Spans l f w d := spans_append_iff (u := [x])

theorem Spans.append (h : Spans l c u f) (h' : Spans l f v d) : Spans l c (u ++ v) d :=
  spans_append_iff.2 ⟨f, h, h'⟩

theorem Spans.place_lt (h : Spans l c w d) (hw : w ≠ []) : c.place < l.length := by
  have hle := h.1.length_le
  have hpos := List.length_pos_of_ne_nil hw
  rw [List.length_drop] at hle
  omega

/-- The text is followed by what is left at its end. -/
theorem Spans.drop_eq (h : Spans l c w d) : l.drop c.place = w ++ l.drop d.place := by
  obtain ⟨⟨r, hr⟩, rfl⟩ := h
  rw [← List.drop_drop, ← hr, List.drop_left]

theorem leads_set_iff : (Expr.set s).Leads l.toArray c d ↔ ∃ x, s x ∧ Spans l c [x] d := by
  simp only [Expr.Leads, Spans, List.getElem?_toArray, List.length_singleton]
  refine exists_congr fun x => ?_
  have hbegins : [x] <+: l.drop c.place ↔ l[c.place]? = some x := by
    rw [← List.head?_drop]
    cases l.drop c.place with
    | nil => simp
    | cons y r => simp [List.cons_prefix_cons, eq_comm]
  rw [hbegins]
  tauto

theorem leads_char_iff {x : Char} : (Expr.set (· == x)).Leads l.toArray c d ↔ Spans l c [x] d := by
  rw [leads_set_iff]
  simp

theorem leads_endText_iff :
    (Expr.assertion .endText).Leads l.toArray c d ↔ l.length ≤ c.place ∧ d = c := by
  simp [Expr.Leads, Assertion.holds]

/-- In front of the end of a text, only its start begins it. -/
theorem leads_startText_iff (hc : c.place < l.length) :
    (Expr.assertion .startText).Leads l.toArray c d ↔ c.place = 0 ∧ d = c := by
  refine and_congr_left fun _ => ?_
  rw [Assertion.holds, charBefore]
  by_cases hzero : c.place = 0
  · simp [hzero]
  · have hlt : c.place - 1 < l.length := by omega
    simp [hzero, hlt]

theorem times_set_iff : Times ((Expr.set s).Leads l.toArray) n c d ↔
    ∃ w, w.length = n ∧ (∀ x ∈ w, s x) ∧ Spans l c w d := by
  induction n generalizing c with
  | zero =>
    constructor
    · intro h
      exact ⟨[], rfl, nofun, spans_nil_iff.2 h⟩
    · rintro ⟨w, hw, -, h⟩
      obtain rfl := List.length_eq_zero_iff.1 hw
      exact spans_nil_iff.1 h
  | succ n ih =>
    constructor
    · rintro ⟨f, hf, hd⟩
      obtain ⟨x, hx, hspan⟩ := leads_set_iff.1 hf
      obtain ⟨w, rfl, hw, hspans⟩ := ih.1 hd
      exact ⟨x :: w, rfl, List.forall_mem_cons.2 ⟨hx, hw⟩, hspan.append hspans⟩
    · rintro ⟨w, hlength, hw, hspans⟩
      obtain ⟨x, w, rfl⟩ := List.exists_cons_of_length_eq_add_one hlength
      obtain ⟨hx, hw⟩ := List.forall_mem_cons.1 hw
      obtain ⟨f, hspan, hspans⟩ := spans_cons_iff.1 hspans
      exact ⟨f, leads_set_iff.2 ⟨x, hx, hspan⟩,
        ih.2 ⟨w, Nat.succ.inj hlength, hw, hspans⟩⟩

/-- A set of characters, repeated. -/
theorem leads_runs_iff {least : Nat} {most : Option Nat} {greedy : Bool} :
    (Expr.repetition (.set s) least most greedy).Leads l.toArray c d ↔
      ∃ w, least ≤ w.length ∧ (∀ m ∈ most, w.length - least ≤ m - least) ∧ (∀ x ∈ w, s x) ∧
        Spans l c w d := by
  rw [Expr.Leads]
  constructor
  · rintro ⟨n, hn, htimes⟩
    obtain ⟨w, hlength, hw, hspans⟩ := times_set_iff.1 htimes
    refine ⟨w, by omega, fun m hm => ?_, hw, hspans⟩
    have := hn m hm
    omega
  · rintro ⟨w, hleast, hmost, hw, hspans⟩
    exact ⟨w.length - least, hmost, times_set_iff.2 ⟨w, by omega, hw, hspans⟩⟩

theorem leads_oneOrMore_iff {greedy : Bool} :
    (Expr.repetition (.set s) 1 none greedy).Leads l.toArray c d ↔
      ∃ w, w ≠ [] ∧ (∀ x ∈ w, s x) ∧ Spans l c w d := by
  rw [leads_runs_iff]
  refine exists_congr fun w => ?_
  simp [Nat.one_le_iff_ne_zero]

theorem leads_anyNumber_iff {greedy : Bool} :
    (Expr.repetition (.set s) 0 none greedy).Leads l.toArray c d ↔
      ∃ w, (∀ x ∈ w, s x) ∧ Spans l c w d := by
  rw [leads_runs_iff]
  simp

theorem leads_oneAtMost_iff {greedy : Bool} :
    (Expr.repetition (.set s) 0 (some 1) greedy).Leads l.toArray c d ↔
      ∃ w, w.length ≤ 1 ∧ (∀ x ∈ w, s x) ∧ Spans l c w d := by
  rw [leads_runs_iff]
  simp

/-! ## Expressions in a row -/

/-- Expressions in a row. -/
def row (es : List Expr) : Expr := es.foldr .seq .empty

theorem leads_row_nil {text : Array Char} : (row []).Leads text c d ↔ d = c := Iff.rfl

theorem leads_row_cons {text : Array Char} {e : Expr} {es : List Expr} :
    (row (e :: es)).Leads text c d ↔ ∃ f, e.Leads text c f ∧ (row es).Leads text f d := Iff.rfl

theorem leads_row_singleton {text : Array Char} {e : Expr} :
    (row [e]).Leads text c d ↔ e.Leads text c d := by
  simp only [leads_row_cons, leads_row_nil, exists_eq_right']

theorem leads_row_append {text : Array Char} {es fs : List Expr} :
    (row (es ++ fs)).Leads text c d ↔ ∃ f, (row es).Leads text c f ∧ (row fs).Leads text f d := by
  induction es generalizing c with
  | nil => simp [leads_row_nil]
  | cons e es ih =>
    simp only [List.cons_append, leads_row_cons, ih]
    constructor
    · rintro ⟨g, he, f, hes, hfs⟩
      exact ⟨f, ⟨g, he, hes⟩, hfs⟩
    · rintro ⟨f, ⟨g, he, hes⟩, hfs⟩
      exact ⟨g, he, f, hes, hfs⟩

/-- A text, character by character. -/
theorem leads_text_iff : (row (w.map fun x => .set (· == x))).Leads l.toArray c d ↔
    Spans l c w d := by
  induction w generalizing c with
  | nil => exact spans_nil_iff.symm
  | cons x w ih =>
    simp only [List.map_cons, leads_row_cons, leads_char_iff, ih]
    exact spans_cons_iff.symm

/-! ## Runs -/

/-- One character of a set or more. -/
def oneOrMore (s : CharSet) : Expr := .repetition (.set s) 1 none true

/-- Any number of characters of a set. -/
def anyNumber (s : CharSet) : Expr := .repetition (.set s) 0 none true

/-- The blanks. -/
def blank : CharSet := fun x => Text.isBlank x != false

theorem leads_gap_iff : (oneOrMore blank).Leads l.toArray c d ↔
    ∃ w, w ≠ [] ∧ (∀ x ∈ w, Text.isBlank x) ∧ Spans l c w d := by
  simp only [oneOrMore, leads_oneOrMore_iff, blank, bne_iff_ne, ne_eq, Bool.not_eq_false]

theorem leads_blanks_iff : (anyNumber blank).Leads l.toArray c d ↔
    ∃ w, (∀ x ∈ w, Text.isBlank x) ∧ Spans l c w d := by
  simp only [anyNumber, leads_anyNumber_iff, blank, bne_iff_ne, ne_eq, Bool.not_eq_false]

/-- A run of characters as the group. -/
theorem leads_group_iff : (Expr.capture (row [oneOrMore s])).Leads l.toArray c d ↔
    ∃ w, w ≠ [] ∧ (∀ x ∈ w, s x) ∧ w <+: l.drop c.place ∧
      d = ⟨c.place + w.length, some c.place, some (c.place, c.place + w.length)⟩ := by
  constructor
  · rintro ⟨f, hrun, rfl⟩
    obtain ⟨w, hne, hw, hbegins, rfl⟩ := leads_oneOrMore_iff.1 (leads_row_singleton.1 hrun)
    exact ⟨w, hne, hw, hbegins, rfl⟩
  · rintro ⟨w, hne, hw, hbegins, rfl⟩
    exact ⟨_, leads_row_singleton.2 (leads_oneOrMore_iff.2 ⟨w, hne, hw, hbegins, rfl⟩), rfl⟩

end Layering.Regex
