import Layering.Proofs.FunctionHead
import Layering.Proofs.Regex.Anchored
import Layering.Proofs.Regex.Spans

/-!
# The pattern of function heads

Function heads can be found with a pattern (`Source.FunctionHead.pattern`). It matches a line if
the line has a reading as a function head, and its group is the return type of every reading
(`Source.FunctionHead.reading_iff`).
-/

namespace Layering.Source

open Regex

/-- The pattern of function heads. -/
def FunctionHead.pattern : String :=
  "^(\\w+(?:\\s+\\*+|\\s+\\w+)*)\\s+\\**(\\w+)\\s*\\([^)]*\\)\\s*\\\x7b?\\s*$"

namespace HeadPattern

variable {l w : List Char} {c d : Cursor}

/-! ## The expression -/

/-- The word characters. -/
def word : CharSet := fun x => Text.isWord x != false

/-- A gap and what follows it. -/
def part : Expr :=
  .alt (row [oneOrMore blank, oneOrMore (· == '*')]) (row [oneOrMore blank, oneOrMore word])

/-- The words and stars in front of the name. -/
def returnType : Expr := row [oneOrMore word, .repetition part 0 none true]

/-- What follows them, up to the end of the line. -/
def rest : Expr :=
  row [oneOrMore blank, anyNumber (· == '*'), row [oneOrMore word], anyNumber blank,
    .set (· == '('), anyNumber (· != ')'), .set (· == ')'), anyNumber blank,
    .repetition (.set (· == '\x7b')) 0 (some 1) true, anyNumber blank, .assertion .endText]

/-- What the pattern stands for. -/
def expr : Expr := .seq (.assertion .startText) (.seq (.capture returnType) rest)

theorem parse_pattern : parse FunctionHead.pattern = some expr := rfl

/-! ## What it matches -/

theorem leads_word_iff : (oneOrMore word).Leads l.toArray c d ↔ ∃ w, isWord w ∧ Spans l c w d := by
  simp only [oneOrMore, leads_oneOrMore_iff, isWord_iff, word, bne_iff_ne, ne_eq,
    Bool.not_eq_false, and_assoc]

theorem leads_stars_iff : (oneOrMore (· == '*')).Leads l.toArray c d ↔
    ∃ w, isStars w ∧ Spans l c w d := by
  simp only [oneOrMore, leads_oneOrMore_iff, isStars_iff, beq_iff_eq, and_assoc]

theorem leads_part_iff : part.Leads l.toArray c d ↔
    ∃ p : HeadPart, Spans l c (p.gap ++ p.piece) d := by
  constructor
  · rintro (⟨f, hgap, hstars⟩ | ⟨f, hgap, hword⟩)
    · obtain ⟨gap, hne, hblank, hgap⟩ := leads_gap_iff.1 hgap
      obtain ⟨w, hw, hspans⟩ := leads_stars_iff.1 (leads_row_singleton.1 hstars)
      exact ⟨⟨gap, w, hne, hblank, .inl hw⟩, hgap.append hspans⟩
    · obtain ⟨gap, hne, hblank, hgap⟩ := leads_gap_iff.1 hgap
      obtain ⟨w, hw, hspans⟩ := leads_word_iff.1 (leads_row_singleton.1 hword)
      exact ⟨⟨gap, w, hne, hblank, .inr hw⟩, hgap.append hspans⟩
  · rintro ⟨p, hspans⟩
    obtain ⟨f, hgap, hpiece⟩ := spans_append_iff.1 hspans
    have hgap := leads_gap_iff.2 ⟨p.gap, p.gap_ne, p.gap_blank, hgap⟩
    rcases p.piece_ok with hw | hw
    · exact .inl ⟨f, hgap, leads_row_singleton.2 (leads_stars_iff.2 ⟨_, hw, hpiece⟩)⟩
    · exact .inr ⟨f, hgap, leads_row_singleton.2 (leads_word_iff.2 ⟨_, hw, hpiece⟩)⟩

theorem times_part_iff {n : Nat} : Times (part.Leads l.toArray) n c d ↔
    ∃ parts : List HeadPart, parts.length = n ∧ Spans l c (HeadPart.text parts) d := by
  induction n generalizing c with
  | zero =>
    simp only [Times, List.length_eq_zero_iff, exists_eq_left, HeadPart.text_nil, spans_nil_iff]
  | succ n ih =>
    constructor
    · rintro ⟨f, hpart, hparts⟩
      obtain ⟨p, hp⟩ := leads_part_iff.1 hpart
      obtain ⟨parts, rfl, hspans⟩ := ih.1 hparts
      refine ⟨p :: parts, rfl, ?_⟩
      rw [HeadPart.text_cons, ← List.append_assoc]
      exact hp.append hspans
    · rintro ⟨parts, hlength, hspans⟩
      obtain ⟨p, parts, rfl⟩ := List.exists_cons_of_length_eq_add_one hlength
      rw [HeadPart.text_cons, ← List.append_assoc] at hspans
      obtain ⟨f, hp, hspans⟩ := spans_append_iff.1 hspans
      exact ⟨f, leads_part_iff.2 ⟨p, hp⟩, ih.2 ⟨parts, Nat.succ.inj hlength, hspans⟩⟩

theorem leads_returnType_iff : returnType.Leads l.toArray c d ↔
    ∃ first parts, isWord first ∧ Spans l c (first ++ HeadPart.text parts) d := by
  constructor
  · rintro ⟨f, hword, hparts⟩
    obtain ⟨first, hfirst, hspan⟩ := leads_word_iff.1 hword
    obtain ⟨n, -, htimes⟩ := leads_row_singleton.1 hparts
    obtain ⟨parts, -, hspans⟩ := times_part_iff.1 htimes
    exact ⟨first, parts, hfirst, hspan.append hspans⟩
  · rintro ⟨first, parts, hfirst, hspans⟩
    obtain ⟨f, hspan, hspans⟩ := spans_append_iff.1 hspans
    have htimes := times_part_iff.2 ⟨parts, rfl, hspans⟩
    rw [← Nat.zero_add parts.length] at htimes
    exact ⟨f, leads_word_iff.2 ⟨first, hfirst, hspan⟩,
      leads_row_singleton.2 ⟨parts.length, nofun, htimes⟩⟩

theorem leads_brace_iff :
    (Expr.repetition (.set (· == '\x7b')) 0 (some 1) true).Leads l.toArray c d ↔
      ∃ w, (w = [] ∨ w = ['\x7b']) ∧ Spans l c w d := by
  rw [leads_oneAtMost_iff]
  refine exists_congr fun w => ?_
  rw [← and_assoc]
  refine and_congr_left fun _ => ?_
  cases w with
  | nil => simp
  | cons x w => cases w <;> simp

theorem leads_rest_iff {first : List Char} (hfirst : isWord first) (parts : List HeadPart) :
    rest.Leads l.toArray c d ↔ ∃ r : HeadReading, r.first = first ∧ r.parts = parts ∧
      Spans l c r.rest d ∧ l.length ≤ d.place := by
  constructor
  · rintro ⟨f₁, hgap, f₂, hstars, f₃, hname, f₄, hspace, f₅, hopen, f₆, hparams, f₇, hclose,
      f₈, hclosing, f₉, hbrace, f₁₀, htrailing, _, hend, rfl⟩
    obtain ⟨gap, hne, hblank, hgap⟩ := leads_gap_iff.1 hgap
    obtain ⟨stars, hall, hstars⟩ := leads_anyNumber_iff.1 hstars
    obtain ⟨name, hword, hname⟩ := leads_word_iff.1 (leads_row_singleton.1 hname)
    obtain ⟨space, hspaces, hspace⟩ := leads_blanks_iff.1 hspace
    obtain ⟨params, hnot, hparams⟩ := leads_anyNumber_iff.1 hparams
    obtain ⟨closing, hclosings, hclosing⟩ := leads_blanks_iff.1 hclosing
    obtain ⟨brace, hbraces, hbrace⟩ := leads_brace_iff.1 hbrace
    obtain ⟨trailing, htrailings, htrailing⟩ := leads_blanks_iff.1 htrailing
    obtain ⟨hend, rfl⟩ := leads_endText_iff.1 hend
    have hopen := leads_char_iff.1 hopen
    have hclose := leads_char_iff.1 hclose
    have hall : ∀ x ∈ stars, x = '*' := by simpa using hall
    have hnot : ∀ x ∈ params, x ≠ ')' := by simpa using hnot
    exact ⟨⟨first, parts, gap, stars, name, space, params, closing, brace, trailing, hfirst, hne,
      hblank, hall, hword, hspaces, hnot, hclosings, hbraces, htrailings⟩, rfl, rfl,
      hgap.append (hstars.append (hname.append (hspace.append (hopen.append (hparams.append
        (hclose.append (hclosing.append (hbrace.append htrailing)))))))), hend⟩
  · rintro ⟨r, rfl, rfl, hspans, hend⟩
    obtain ⟨f₁, hgap, hspans⟩ := spans_append_iff.1 hspans
    obtain ⟨f₂, hstars, hspans⟩ := spans_append_iff.1 hspans
    obtain ⟨f₃, hname, hspans⟩ := spans_append_iff.1 hspans
    obtain ⟨f₄, hspace, hspans⟩ := spans_append_iff.1 hspans
    obtain ⟨f₅, hopen, hspans⟩ := spans_cons_iff.1 hspans
    obtain ⟨f₆, hparams, hspans⟩ := spans_append_iff.1 hspans
    obtain ⟨f₇, hclose, hspans⟩ := spans_cons_iff.1 hspans
    obtain ⟨f₈, hclosing, hspans⟩ := spans_append_iff.1 hspans
    obtain ⟨f₉, hbrace, htrailing⟩ := spans_append_iff.1 hspans
    exact ⟨f₁, leads_gap_iff.2 ⟨_, r.gap_ne, r.gap_blank, hgap⟩,
      f₂, leads_anyNumber_iff.2 ⟨_, by simpa using r.stars_stars, hstars⟩,
      f₃, leads_row_singleton.2 (leads_word_iff.2 ⟨_, r.name_word, hname⟩),
      f₄, leads_blanks_iff.2 ⟨_, r.space_blank, hspace⟩,
      f₅, leads_char_iff.2 hopen,
      f₆, leads_anyNumber_iff.2 ⟨_, by simpa using r.params_open, hparams⟩,
      f₇, leads_char_iff.2 hclose,
      f₈, leads_blanks_iff.2 ⟨_, r.closing_blank, hclosing⟩,
      f₉, leads_brace_iff.2 ⟨_, r.brace_ok, hbrace⟩,
      d, leads_blanks_iff.2 ⟨_, r.trailing_blank, htrailing⟩,
      d, leads_endText_iff.2 ⟨hend, rfl⟩, rfl⟩

/-- The expression matches the readings of a text. -/
theorem leads_expr_iff : expr.Leads l.toArray c d ↔ c.place = 0 ∧
    ∃ r : HeadReading, r.line = l ∧ d = ⟨l.length, some 0, some (0, r.returnType.length)⟩ := by
  constructor
  · rintro ⟨⟨place, opened, group⟩, hstart, _, ⟨f, hreturn, rfl⟩, hrest⟩
    obtain rfl : c = ⟨place, opened, group⟩ := hstart.2.symm
    obtain ⟨first, parts, hfirst, hspan⟩ := leads_returnType_iff.1 hreturn
    obtain ⟨r, rfl, rfl, hspan', hend⟩ := (leads_rest_iff hfirst parts).1 hrest
    have hne : r.first ++ HeadPart.text r.parts ≠ [] :=
      List.append_ne_nil_of_left_ne_nil (isWord_iff.1 hfirst).1 _
    have hlt : place < l.length := hspan.place_lt hne
    obtain rfl : place = 0 := ((leads_startText_iff hlt).1 hstart).1
    obtain ⟨hrun, rfl⟩ := hspan
    obtain ⟨hrun', rfl⟩ := hspan'
    simp only [Nat.zero_add] at hrun' hend
    have hline : r.line = l := by
      obtain ⟨t, ht⟩ := hrun
      obtain rfl : r.returnType ++ t = l := ht
      have hrest : r.rest <+: t := by
        rwa [← HeadReading.returnType, List.drop_left] at hrun'
      rw [← HeadReading.returnType, List.length_append, Nat.add_le_add_iff_left] at hend
      rw [r.line_eq, hrest.eq_of_length_le hend]
    have hlength : l.length = r.returnType.length + r.rest.length := by
      rw [← hline, r.line_eq, List.length_append]
    refine ⟨rfl, r, hline, ?_⟩
    simp only [Nat.zero_add, Option.map_some, hlength]
    rfl
  · rintro ⟨hzero, r, rfl, rfl⟩
    have hlt : c.place < r.line.length := hzero ▸ r.length_line_pos
    refine ⟨c, (leads_startText_iff hlt).2 ⟨hzero, rfl⟩,
      ⟨r.returnType.length, some 0, some (0, r.returnType.length)⟩,
      ⟨⟨r.returnType.length, some 0, c.group⟩, leads_returnType_iff.2
        ⟨r.first, r.parts, r.first_word, ?_, ?_⟩, rfl⟩,
      (leads_rest_iff r.first_word r.parts).2 ⟨r, rfl, rfl, ⟨?_, ?_⟩, Nat.le_refl _⟩⟩
    · rw [hzero, List.drop_zero, r.line_eq]
      exact List.prefix_append ..
    · rw [hzero, Nat.zero_add]
      rfl
    · rw [r.line_eq, List.drop_left]
    · rw [r.line_eq, List.length_append]

theorem anchored_expr : expr.Anchored l.toArray := by
  intro c d h
  obtain ⟨hzero, r, rfl, rfl⟩ := leads_expr_iff.1 h
  exact ⟨hzero, r.length_line_pos⟩

/-- The pattern is found in lines that can be read as heads, with the return type as its group. -/
theorem groups_expr :
    ((ofExpr expr).groups (String.ofList l) = [] ∧ ¬ ∃ r : HeadReading, r.line = l) ∨
    ∃ r : HeadReading, r.line = l ∧
      (ofExpr expr).groups (String.ofList l) = [String.ofList r.returnType] := by
  rcases groups_of_anchored (anchored_expr (l := l)) with ⟨hnil, hnone⟩ | ⟨d, hd, hgroups⟩
  · refine .inl ⟨hnil, ?_⟩
    rintro ⟨r, hr⟩
    exact hnone _ (leads_expr_iff.2 ⟨rfl, r, hr, rfl⟩)
  · obtain ⟨-, r, rfl, rfl⟩ := leads_expr_iff.1 hd
    refine .inr ⟨r, rfl, hgroups.trans ?_⟩
    rw [Option.map_some, Option.toList_some, List.drop_zero, Nat.sub_zero, r.line_eq,
      List.take_left]

end HeadPattern

/-! ## Readings -/

/-- What is recorded of a reading is told by the line. -/
structure HeadReading.Told (r : HeadReading) : Prop where
  /-- The name is the word in front of the first bracket, and the words of the return type are all
  words in front of the name. -/
  words : FunctionHead.told r.line = ⟨(Text.words r.returnType).filter isWord, r.name⟩
  head : FunctionHead.ofLine? r.line = some r.head
  symbol : r.head.symbol = (FunctionHead.told r.line).symbol
  isDefinition : r.head.isDefinition = (FunctionHead.told r.line).isDefinition

theorem HeadReading.told (r : HeadReading) : r.Told where
  words := r.told_line
  head := r.ofLine?_line
  symbol := by rw [told_line]; exact (FunctionHead.symbol_filter r.head).symm
  isDefinition := by rw [told_line]; exact (FunctionHead.isDefinition_filter r.head).symm

/-- The pattern of function heads matches a trimmed line if and only if the line has a reading, and
so does the search for heads by words. What is recorded is the same for all readings. -/
theorem FunctionHead.reading_iff (t : List Char) :
    (∃ x, Regex.ofPattern? pattern = some x ∧
      (x.groups (String.ofList (Text.trim t)) ≠ [] ↔ ∃ r : HeadReading, r.line = Text.trim t) ∧
      ∀ r : HeadReading, r.line = Text.trim t →
        x.groups (String.ofList (Text.trim t)) = [String.ofList r.returnType]) ∧
    ((ofLine? (Text.trim t)).isSome ↔ ∃ r : HeadReading, r.line = Text.trim t) ∧
    ∀ r : HeadReading, r.line = Text.trim t → r.Told := by
  have hfront := Text.isBlank_of_mem_head?_trim (l := t)
  generalize Text.trim t = l at hfront ⊢
  have hunique : ∀ r r' : HeadReading, r.line = r'.line → r.returnType = r'.returnType :=
    fun r r' h => by rw [r.returnType_eq, r'.returnType_eq, h]
  refine ⟨⟨ofExpr HeadPattern.expr, ofPattern?_of_parse HeadPattern.parse_pattern, ?_⟩, ?_,
    fun r _ => r.told⟩
  · rcases HeadPattern.groups_expr (l := l) with ⟨hnil, hnone⟩ | ⟨r, hr, hgroups⟩
    · exact ⟨⟨fun h => absurd hnil h, fun h => absurd h hnone⟩,
        fun r hr => absurd ⟨r, hr⟩ hnone⟩
    · refine ⟨⟨fun _ => ⟨r, hr⟩, fun _ => by simp [hgroups]⟩, fun r' hr' => ?_⟩
      rw [hgroups, hunique r r' (hr.trans hr'.symm)]
  · constructor
    · intro h
      obtain ⟨head, hhead⟩ := Option.isSome_iff_exists.1 h
      obtain ⟨r, hr, -⟩ := exists_reading hfront hhead
      exact ⟨r, hr⟩
    · rintro ⟨r, hr⟩
      rw [← hr, r.ofLine?_line]
      rfl

/-- A reading of a private function with stars and gaps. -/
def privateReading : HeadReading where
  first := "static".toList
  parts := [⟨[' '], "const".toList, by decide, List.all_eq_true.1 rfl, .inr (by decide)⟩,
    ⟨"  ".toList, "char".toList, by decide, List.all_eq_true.1 rfl, .inr (by decide)⟩,
    ⟨[' '], ['*'], by decide, List.all_eq_true.1 rfl, .inl (by decide)⟩]
  gap := [' ']
  stars := "**".toList
  name := "name_of".toList
  space := [' ']
  params := "int (*f".toList
  closing := []
  brace := ['\x7b']
  trailing := []
  first_word := by decide
  gap_ne := by decide
  gap_blank := List.all_eq_true.1 rfl
  stars_stars := by simp
  name_word := by decide
  space_blank := List.all_eq_true.1 rfl
  params_open := by simp
  closing_blank := nofun
  brace_ok := .inr rfl
  trailing_blank := nofun

/-- The line of the reading is a head, and its symbol is private. -/
theorem FunctionHead.reading_iff_private :
    Text.trim privateReading.line = privateReading.line ∧
      ∃ x, Regex.ofPattern? pattern = some x ∧
        x.groups (String.ofList (Text.trim privateReading.line)) = ["static const  char *"] ∧
          (ofLine? (Text.trim privateReading.line)).isSome ∧
            privateReading.head.symbol = ⟨"name_of", true⟩ := by
  have htrim : Text.trim privateReading.line = privateReading.line := by decide
  obtain ⟨⟨x, hx, -, hgroups⟩, hhead, -⟩ := FunctionHead.reading_iff privateReading.line
  exact ⟨htrim, x, hx, hgroups privateReading htrim.symm, hhead.2 ⟨privateReading, htrim.symm⟩,
    by decide⟩

end Layering.Source
