import Layering.Proofs.Extractor
import Layering.Proofs.NormalForm
import Layering.Proofs.Text.Runs

/-!
# Readings of function heads

A line is the head of a function if it can be read as words and stars, a name, and parameters
(`Source.HeadReading`). What is recorded of it is told by the line alone, however it is read: the
name is the word in front of the first bracket, and the words of the return type are all words in
front of the name.
-/

namespace Layering

/-! ## Blanks and words -/

/-- The blanks. -/
def Text.blanks : List Char :=
  [9, 10, 11, 12, 13, 0x20, 0x85, 0xA0, 0x1680, 0x2000, 0x2001, 0x2002, 0x2003, 0x2004, 0x2005,
    0x2006, 0x2007, 0x2008, 0x2009, 0x200A, 0x2028, 0x2029, 0x202F, 0x205F, 0x3000].map Char.ofNat

theorem Text.mem_blanks {c : Char} (h : isBlank c) : c ∈ blanks := by
  refine List.mem_map.2 ⟨c.toNat, ?_, Char.ofNat_toNat c⟩
  simp only [isBlank, Bool.or_eq_true, Bool.and_eq_true, decide_eq_true_eq, beq_iff_eq] at h
  simp only [List.mem_cons, List.not_mem_nil, or_false]
  omega

theorem Text.isBlank_of_mem_head?_trim {l : List Char} :
    ∀ x ∈ (trim l).head?, isBlank x = false := by
  intro x hx
  obtain ⟨r, hr⟩ := dropEndWhile_isPrefix isBlank (l.dropWhile isBlank)
  have hhead := List.head?_dropWhile_not isBlank l
  have hcut : (l.dropWhile isBlank).head? = some x := by
    rw [← hr]
    exact List.mem_head?_append_of_mem_head? hx
  rwa [hcut] at hhead

/-- No blank is part of a word. -/
theorem Text.isWord_of_isBlank {c : Char} (h : isBlank c) : isWord c = false := by
  have hall : blanks.all (!isWord ·) := by decide +kernel
  simpa using List.all_eq_true.1 hall c (mem_blanks h)

namespace Source

variable {l w : List Char} {ws : List (List Char)} {h : FunctionHead}

/-! ## Words and stars -/

theorem isWord_iff {w : List Char} : isWord w ↔ w ≠ [] ∧ ∀ x ∈ w, Text.isWord x := by
  simp [isWord]

theorem isStars_iff {w : List Char} : isStars w ↔ w ≠ [] ∧ ∀ x ∈ w, x = '*' := by
  simp [isStars]

theorem isBlank_of_isWord {w : List Char} (h : isWord w) : ∀ x ∈ w, Text.isBlank x = false := by
  intro x hx
  by_contra hblank
  have hword := (isWord_iff.1 h).2 x hx
  rw [Text.isWord_of_isBlank (by simpa using hblank)] at hword
  cases hword

theorem not_isWord_of_isStars {w : List Char} (h : isStars w) : isWord w = false := by
  obtain ⟨hne, hstars⟩ := isStars_iff.1 h
  obtain ⟨c, w, rfl⟩ := List.exists_cons_of_ne_nil hne
  rw [hstars c List.mem_cons_self]
  rfl

theorem ne_bracket_of_isBlank {x : Char} (h : Text.isBlank x) : x ≠ '(' := by
  rintro rfl
  cases h

theorem ne_bracket_of_isWord {x : Char} (h : Text.isWord x) : x ≠ '(' := by
  rintro rfl
  cases h

/-! ## Readings -/

/-- Stars or a word of a return type, and the gap in front of them. -/
structure HeadPart where
  gap : List Char
  piece : List Char
  gap_ne : gap ≠ []
  gap_blank : ∀ x ∈ gap, Text.isBlank x
  piece_ok : isStars piece ∨ isWord piece

namespace HeadPart

/-- The text of some parts. -/
def text (parts : List HeadPart) : List Char := parts.flatMap fun p => p.gap ++ p.piece

@[simp] theorem text_nil : text [] = [] := rfl

@[simp] theorem text_cons (p : HeadPart) (parts : List HeadPart) :
    text (p :: parts) = p.gap ++ (p.piece ++ text parts) := by
  rw [text, List.flatMap_cons, List.append_assoc]
  rfl

theorem piece_ne (p : HeadPart) : p.piece ≠ [] :=
  p.piece_ok.elim (fun h => (isStars_iff.1 h).1) fun h => (isWord_iff.1 h).1

theorem isBlank_of_mem_piece (p : HeadPart) : ∀ x ∈ p.piece, Text.isBlank x = false := by
  rcases p.piece_ok with h | h
  · intro x hx
    rw [(isStars_iff.1 h).2 x hx]
    rfl
  · exact isBlank_of_isWord h

/-- Parts begin with a blank. -/
theorem isBlank_of_mem_head?_text {l : List Char} (hl : ∀ x ∈ l.head?, Text.isBlank x)
    (parts : List HeadPart) : ∀ x ∈ (text parts ++ l).head?, Text.isBlank x := by
  cases parts with
  | nil => exact hl
  | cons p parts =>
    obtain ⟨c, gap, hgap⟩ := List.exists_cons_of_ne_nil p.gap_ne
    have hc : Text.isBlank c := p.gap_blank c (by simp [hgap])
    simpa [hgap] using hc

/-- Text that does not end in a blank does not with parts behind it either. -/
theorem isBlank_of_mem_getLast?_append (parts : List HeadPart) {w : List Char} (hne : w ≠ [])
    (hw : ∀ x ∈ w, Text.isBlank x = false) :
    ∀ x ∈ (w ++ text parts).getLast?, Text.isBlank x = false := by
  induction parts generalizing w with
  | nil =>
    rw [text_nil, List.append_nil]
    exact fun x hx => hw x (List.mem_of_mem_getLast? hx)
  | cons p parts ih =>
    have hpiece : p.piece ++ text parts ≠ [] := List.append_ne_nil_of_left_ne_nil p.piece_ne _
    rw [text_cons, ← List.append_assoc, List.getLast?_append_of_ne_nil _ hpiece]
    exact ih p.piece_ne p.isBlank_of_mem_piece

/-- Parts have no brackets. -/
theorem ne_bracket_of_mem_text {parts : List HeadPart} : ∀ x ∈ text parts, x ≠ '(' := by
  intro x hx
  obtain ⟨p, -, hx⟩ := List.mem_flatMap.1 hx
  rcases List.mem_append.1 hx with hx | hx
  · exact ne_bracket_of_isBlank (p.gap_blank x hx)
  · rcases p.piece_ok with h | h
    · rw [(isStars_iff.1 h).2 x hx]
      decide
    · exact ne_bracket_of_isWord ((isWord_iff.1 h).2 x hx)

/-- Cut at the blanks, parts are their pieces. -/
theorem words_text_append (parts : List HeadPart) {l : List Char}
    (hl : ∀ x ∈ l.head?, Text.isBlank x) :
    Text.words (text parts ++ l) = parts.map piece ++ Text.words l := by
  induction parts with
  | nil => rfl
  | cons p parts ih =>
    rw [text_cons, List.append_assoc, List.append_assoc, Text.words,
      Text.splitRuns_gap_append p.gap_blank, Text.splitRuns_run_append p.piece_ne
        p.isBlank_of_mem_piece (isBlank_of_mem_head?_text hl parts),
      List.map_cons, List.cons_append]
    exact congrArg (p.piece :: ·) ih

end HeadPart

/-- A reading of a line as the head of a function: a word, stars and words, a name with stars in
front of it or none, parameters in brackets, and a brace or none. -/
structure HeadReading where
  first : List Char
  parts : List HeadPart
  gap : List Char
  stars : List Char
  name : List Char
  space : List Char
  params : List Char
  closing : List Char
  brace : List Char
  trailing : List Char
  first_word : isWord first
  gap_ne : gap ≠ []
  gap_blank : ∀ x ∈ gap, Text.isBlank x
  stars_stars : ∀ x ∈ stars, x = '*'
  name_word : isWord name
  space_blank : ∀ x ∈ space, Text.isBlank x
  params_open : ∀ x ∈ params, x ≠ ')'
  closing_blank : ∀ x ∈ closing, Text.isBlank x
  brace_ok : brace = [] ∨ brace = ['\x7b']
  trailing_blank : ∀ x ∈ trailing, Text.isBlank x

namespace HeadReading

variable (r : HeadReading)

/-- The words and stars in front of the name. -/
def returnType : List Char := r.first ++ HeadPart.text r.parts

/-- The text in front of the name. -/
def front : List Char := r.returnType ++ (r.gap ++ r.stars)

/-- What stands in front of the brackets. -/
def before : List Char := r.front ++ (r.name ++ r.space)

/-- What stands behind the opening bracket. -/
def after : List Char := r.params ++ ')' :: (r.closing ++ (r.brace ++ r.trailing))

/-- The line that is read. -/
def line : List Char := r.before ++ '(' :: r.after

/-- What follows the return type. -/
def rest : List Char :=
  r.gap ++ (r.stars ++ (r.name ++ (r.space ++ '(' :: r.after)))

theorem line_eq : r.line = r.returnType ++ r.rest := by
  simp only [line, before, front, rest, List.append_assoc]

theorem length_line_pos : 0 < r.line.length := by
  rw [line, List.length_append, List.length_cons]
  omega

/-- The head that a line is read as. -/
def head : FunctionHead := ⟨Text.words r.returnType, r.name⟩

end HeadReading

/-! ## Heads by their words -/

namespace FunctionHead

/-- The last word is the name with its stars. -/
theorem ofWords?_eq_some_iff : ofWords? ws = some h ↔ ∃ first rest last,
    ws = first :: rest ++ [last] ∧ isWord first ∧ (∀ w ∈ rest, isStars w ∨ isWord w) ∧
      isWord (last.dropWhile (· == '*')) ∧ h = ⟨first :: rest, last.dropWhile (· == '*')⟩ := by
  have hconcat : ∀ first rest last, ofWords? (first :: rest ++ [last]) =
      if isWord first && rest.all (fun w => isWord w || isStars w) &&
        isWord (last.dropWhile (· == '*')) then
          some ⟨first :: rest, last.dropWhile (· == '*')⟩ else none := by
    intro first rest last
    simp [ofWords?]
  constructor
  · intro hws
    obtain ⟨before, last, rfl⟩ : ∃ before last, ws = before ++ [last] := by
      refine ⟨ws.dropLast, _, (List.dropLast_append_getLast ?_).symm⟩
      rintro rfl
      cases hws
    cases before with
    | nil => simp [ofWords?] at hws
    | cons first rest =>
      rw [hconcat] at hws
      split at hws
      · next hok =>
        simp only [Bool.and_eq_true, List.all_eq_true, Bool.or_eq_true] at hok
        obtain ⟨⟨hfirst, hrest⟩, hlast⟩ := hok
        exact ⟨first, rest, last, rfl, hfirst, fun w hw => (hrest w hw).symm, hlast,
          (Option.some.inj hws).symm⟩
      · cases hws
  · rintro ⟨first, rest, last, rfl, hfirst, hrest, hlast, rfl⟩
    rw [hconcat, if_pos]
    simp only [Bool.and_eq_true, List.all_eq_true, Bool.or_eq_true]
    exact ⟨⟨hfirst, fun w hw => (hrest w hw).symm⟩, hlast⟩

end FunctionHead

theorem closesHead_iff : closesHead l ↔ ∃ params closing brace trailing,
    l = params ++ ')' :: (closing ++ (brace ++ trailing)) ∧ (∀ x ∈ params, x ≠ ')') ∧
      (∀ x ∈ closing, Text.isBlank x) ∧ (brace = [] ∨ brace = ['\x7b']) ∧
      ∀ x ∈ trailing, Text.isBlank x := by
  constructor
  · intro hl
    obtain hall | ⟨params, c, rest, rfl, hparams, hc⟩ := Text.forall_or_exists_first (· != ')') l
    · rw [closesHead, List.dropWhile_eq_nil_iff.2 hall] at hl
      cases hl
    · obtain rfl : c = ')' := by simpa using hc
      rw [closesHead, Text.dropWhile_append_cons hparams hc] at hl
      have hparams : ∀ x ∈ params, x ≠ ')' := by simpa using hparams
      obtain hall | ⟨closing, d, rest, rfl, hclosing, hd⟩ :=
        Text.forall_or_exists_first Text.isBlank rest
      · exact ⟨params, rest, [], [], by simp, hparams, hall, .inl rfl, nofun⟩
      · simp only [Text.dropWhile_append_cons hclosing hd] at hl
        split at hl
        · next heq =>
          obtain ⟨rfl, rfl⟩ := List.cons.inj heq
          exact ⟨params, closing, ['\x7b'], _, rfl, hparams, hclosing, .inr rfl,
            List.all_eq_true.1 hl⟩
        · cases hl
  · rintro ⟨params, closing, brace, trailing, rfl, hparams, hclosing, hbrace, htrailing⟩
    have hparams : ∀ x ∈ params, x != ')' := by simpa using hparams
    rw [closesHead, Text.dropWhile_append_cons hparams rfl]
    rcases hbrace with rfl | rfl
    · have hnil : (closing ++ ([] ++ trailing)).dropWhile Text.isBlank = [] :=
        List.dropWhile_eq_nil_iff.2 (by simpa [or_imp, forall_and] using ⟨hclosing, htrailing⟩)
      simp only [hnil]
      rfl
    · have hopen : (closing ++ (['\x7b'] ++ trailing)).dropWhile Text.isBlank =
          '\x7b' :: trailing := Text.dropWhile_append_cons hclosing rfl trailing
      simp only [hopen]
      exact List.all_eq_true.2 htrailing

/-! ## Heads that are read -/

namespace HeadReading

variable (r : HeadReading)

theorem name_ne_star : ∀ x ∈ r.name.head?, (x == '*') = false := by
  intro x hx
  have hword := (isWord_iff.1 r.name_word).2 x (List.mem_of_mem_head? hx)
  by_contra hstar
  obtain rfl : x = '*' := by simpa using hstar
  cases hword

/-- The word in front of the brackets is the name with its stars. -/
theorem dropWhile_stars : (r.stars ++ r.name).dropWhile (· == '*') = r.name := by
  rw [List.dropWhile_append_of_pos (by simpa using r.stars_stars)]
  obtain ⟨c, name, hname⟩ := List.exists_cons_of_ne_nil (isWord_iff.1 r.name_word).1
  have hc := r.name_ne_star c (by simp [hname])
  rw [hname, List.dropWhile_cons_of_neg (by simp [hc])]

theorem isBlank_of_mem_stars_name : ∀ x ∈ r.stars ++ r.name, Text.isBlank x = false := by
  intro x hx
  rcases List.mem_append.1 hx with hx | hx
  · rw [r.stars_stars x hx]
    rfl
  · exact isBlank_of_isWord r.name_word x hx

theorem isBlank_of_mem_head?_gap (l : List Char) :
    ∀ x ∈ (r.gap ++ l).head?, Text.isBlank x := by
  obtain ⟨c, gap, hgap⟩ := List.exists_cons_of_ne_nil r.gap_ne
  simpa [hgap] using r.gap_blank c (by simp [hgap])

theorem words_first_append {l : List Char} (hl : ∀ x ∈ l.head?, Text.isBlank x) :
    Text.words (r.first ++ l) = r.first :: Text.words l :=
  Text.splitRuns_run_append (isWord_iff.1 r.first_word).1 (isBlank_of_isWord r.first_word) hl

theorem words_returnType : Text.words r.returnType = r.first :: r.parts.map HeadPart.piece := by
  have hparts := HeadPart.isBlank_of_mem_head?_text (l := []) nofun r.parts
  have hwords := HeadPart.words_text_append r.parts (l := []) nofun
  rw [List.append_nil] at hparts hwords
  rw [returnType, words_first_append r hparts, hwords]
  exact congrArg _ (List.append_nil _)

theorem words_before : Text.words r.before = Text.words r.returnType ++ [r.stars ++ r.name] := by
  have hbefore : r.before = r.first ++
      (HeadPart.text r.parts ++ (r.gap ++ ((r.stars ++ r.name) ++ r.space))) := by
    simp [before, front, returnType]
  have hne : r.stars ++ r.name ≠ [] :=
    List.append_ne_nil_of_right_ne_nil _ (isWord_iff.1 r.name_word).1
  have hlast : Text.words (r.gap ++ ((r.stars ++ r.name) ++ r.space)) = [r.stars ++ r.name] := by
    rw [Text.words, Text.splitRuns_gap_append r.gap_blank,
      Text.splitRuns_run_append hne r.isBlank_of_mem_stars_name fun x hx =>
        r.space_blank x (List.mem_of_mem_head? hx), Text.splitRuns_gap r.space_blank]
  have hgap := r.isBlank_of_mem_head?_gap ((r.stars ++ r.name) ++ r.space)
  rw [hbefore, r.words_first_append (HeadPart.isBlank_of_mem_head?_text hgap r.parts),
    HeadPart.words_text_append r.parts hgap, hlast, words_returnType]
  rfl

/-- What stands in front of the brackets has none. -/
theorem ne_bracket_of_mem_before : ∀ x ∈ r.before, x ≠ '(' := by
  simp only [before, front, returnType, List.mem_append]
  rintro x (((hx | hx) | hx | hx) | hx | hx)
  · exact ne_bracket_of_isWord ((isWord_iff.1 r.first_word).2 x hx)
  · exact HeadPart.ne_bracket_of_mem_text x hx
  · exact ne_bracket_of_isBlank (r.gap_blank x hx)
  · rw [r.stars_stars x hx]
    decide
  · exact ne_bracket_of_isWord ((isWord_iff.1 r.name_word).2 x hx)
  · exact ne_bracket_of_isBlank (r.space_blank x hx)

theorem takeWhile_line : r.line.takeWhile (· != '(') = r.before :=
  Text.takeWhile_append_cons (by simpa using r.ne_bracket_of_mem_before) rfl _

theorem ofLine?_line : FunctionHead.ofLine? r.line = some r.head := by
  have hclose : closesHead r.after := closesHead_iff.2 ⟨_, _, _, _, rfl, r.params_open,
    r.closing_blank, r.brace_ok, r.trailing_blank⟩
  have hwords : FunctionHead.ofWords? (Text.words r.before) = some r.head := by
    refine FunctionHead.ofWords?_eq_some_iff.2 ⟨r.first, r.parts.map HeadPart.piece,
      r.stars ++ r.name, ?_, r.first_word, ?_, ?_, ?_⟩
    · rw [words_before, words_returnType]
    · intro w hw
      obtain ⟨p, -, rfl⟩ := List.mem_map.1 hw
      exact p.piece_ok
    · rw [dropWhile_stars]
      exact r.name_word
    · rw [dropWhile_stars, head, words_returnType]
  rw [FunctionHead.ofLine?, takeWhile_line, line, List.drop_left]
  simp only [hclose, hwords, if_true]

end HeadReading

/-! ## Readings of heads -/

/-- The first of the words behind a gap. -/
theorem exists_gap_of_words (hl : ∀ x ∈ l.head?, Text.isBlank x) (h : Text.words l = w :: ws) :
    ∃ gap l', l = gap ++ (w ++ l') ∧ gap ≠ [] ∧ (∀ x ∈ gap, Text.isBlank x) ∧
      (∀ x ∈ l'.head?, Text.isBlank x) ∧ Text.words l' = ws := by
  obtain ⟨gap, l', rfl, hgap, hne, hrun, hl', hws⟩ := Text.splitRuns_eq_cons_iff.1 h
  refine ⟨gap, l', rfl, ?_, hgap, hl', hws⟩
  rintro rfl
  obtain ⟨c, w, rfl⟩ := List.exists_cons_of_ne_nil hne
  have hblank := hl c rfl
  rw [hrun c List.mem_cons_self] at hblank
  cases hblank

/-- Words behind a gap are parts, except for the last one. -/
theorem exists_parts {rest : List (List Char)} {last : List Char}
    (hrest : ∀ w ∈ rest, isStars w ∨ isWord w) (hl : ∀ x ∈ l.head?, Text.isBlank x)
    (hwords : Text.words l = rest ++ [last]) : ∃ parts gap space,
      l = HeadPart.text parts ++ (gap ++ (last ++ space)) ∧ parts.map HeadPart.piece = rest ∧
        gap ≠ [] ∧ (∀ x ∈ gap, Text.isBlank x) ∧ ∀ x ∈ space, Text.isBlank x := by
  induction rest generalizing l with
  | nil =>
    obtain ⟨gap, space, rfl, hne, hgap, -, hspace⟩ := exists_gap_of_words hl hwords
    exact ⟨[], gap, space, rfl, rfl, hne, hgap, Text.splitRuns_eq_nil_iff.1 hspace⟩
  | cons w rest ih =>
    obtain ⟨hw, hrest⟩ := List.forall_mem_cons.1 hrest
    obtain ⟨gap, l', rfl, hne, hgap, hl', hws⟩ := exists_gap_of_words hl hwords
    obtain ⟨parts, gap', space, rfl, rfl, hgap'⟩ := ih hrest hl' hws
    exact ⟨⟨gap, w, hne, hgap, hw⟩ :: parts, gap', space, by simp, rfl, hgap'⟩

/-- A line without a blank in front is read as the head that it is. -/
theorem exists_reading (hl : ∀ x ∈ l.head?, Text.isBlank x = false)
    (hhead : FunctionHead.ofLine? l = some h) : ∃ r : HeadReading, r.line = l ∧ r.head = h := by
  obtain hall | ⟨before, c, after, rfl, hbefore, hc⟩ := Text.forall_or_exists_first (· != '(') l
  · have hnone : FunctionHead.ofLine? l = none := by
      rw [FunctionHead.ofLine?, List.takeWhile_eq_self_iff.2 hall, List.drop_length]
    cases hnone.symm.trans hhead
  obtain rfl : c = '(' := by simpa using hc
  rw [FunctionHead.ofLine?, Text.takeWhile_append_cons hbefore hc, List.drop_left] at hhead
  simp only at hhead
  split at hhead
  case isFalse => cases hhead
  case isTrue hclose =>
    obtain ⟨params, closing, brace, trailing, rfl, hparams, hclosing, hbrace, htrailing⟩ :=
      closesHead_iff.1 hclose
    obtain ⟨first, rest, last, hwords, hfirst, hrest, hname, rfl⟩ :=
      FunctionHead.ofWords?_eq_some_iff.1 hhead
    -- the line has no blank in front of its first word
    obtain ⟨front, l', rfl, hfront, -, -, hl', hws⟩ := Text.splitRuns_eq_cons_iff.1 hwords
    obtain rfl : front = [] := by
      cases front with
      | nil => rfl
      | cons c front => cases (hl c rfl).symm.trans (hfront c List.mem_cons_self)
    obtain ⟨parts, gap, space, rfl, rfl, hne, hgap, hspace⟩ := exists_parts hrest hl' hws
    have hstars : ∀ x ∈ last.takeWhile (· == '*'), x = '*' := fun x hx => by
      simpa using List.mem_takeWhile_imp hx
    let r : HeadReading := ⟨first, parts, gap, last.takeWhile (· == '*'),
      last.dropWhile (· == '*'), space, params, closing, brace, trailing, hfirst, hne, hgap, hstars,
      hname, hspace, hparams, hclosing, hbrace, htrailing⟩
    refine ⟨r, ?_, ?_⟩
    · have hbefore : r.before = first ++ (HeadPart.text parts ++ (gap ++ (last ++ space))) := by
        simp only [r, HeadReading.before, HeadReading.front, HeadReading.returnType,
          List.append_assoc]
        rw [← List.append_assoc (last.takeWhile _), List.takeWhile_append_dropWhile]
      rw [HeadReading.line, hbefore]
      rfl
    · rw [HeadReading.head, HeadReading.words_returnType]

/-! ## What a line tells -/

/-- The text in front of the first bracket of a line, without the blanks at its end. -/
def beforeBracket (l : List Char) : List Char :=
  Text.dropEndWhile Text.isBlank (l.takeWhile (· != '('))

/-- The text in front of the name that stands in front of the first bracket. -/
def frontOf (l : List Char) : List Char := Text.dropEndWhile Text.isWord (beforeBracket l)

/-- The maximal words of a text. -/
def maximalWords (l : List Char) : List (List Char) := Text.splitRuns (!Text.isWord ·) [] l

/-- The maximal word in front of the first bracket of a line, and all words in front of that. -/
def FunctionHead.told (l : List Char) : FunctionHead where
  specifiers := maximalWords (frontOf l)
  name := ((beforeBracket l).reverse.takeWhile Text.isWord).reverse

theorem HeadPart.maximalWords_text_append (parts : List HeadPart)
    (hl : ∀ x ∈ l.head?, Text.isWord x = false) :
    maximalWords (text parts ++ l) = (parts.map piece).filter isWord ++ maximalWords l := by
  induction parts with
  | nil => rfl
  | cons p parts ih =>
    have hgap : ∀ x ∈ p.gap, (!Text.isWord x) = true := fun x hx => by
      rw [Text.isWord_of_isBlank (p.gap_blank x hx)]
      rfl
    rw [text_cons, List.append_assoc, List.append_assoc, maximalWords,
      Text.splitRuns_gap_append hgap, List.map_cons, List.filter_cons]
    rcases p.piece_ok with hstars | hword
    · have hpiece : ∀ x ∈ p.piece, (!Text.isWord x) = true := fun x hx => by
        rw [(isStars_iff.1 hstars).2 x hx]
        rfl
      rw [Text.splitRuns_gap_append hpiece, if_neg (by simp [not_isWord_of_isStars hstars])]
      exact ih
    · have hpiece : ∀ x ∈ p.piece, (!Text.isWord x) = false := by
        simpa using (isWord_iff.1 hword).2
      have hrest : ∀ x ∈ (text parts ++ l).head?, (!Text.isWord x) = true := by
        cases parts with
        | nil => simpa using hl
        | cons q parts =>
          obtain ⟨c, gap, hq⟩ := List.exists_cons_of_ne_nil q.gap_ne
          have hc := Text.isWord_of_isBlank (q.gap_blank c (by simp [hq]))
          simpa [hq] using hc
      rw [Text.splitRuns_run_append p.piece_ne hpiece hrest, if_pos hword, List.cons_append]
      exact congrArg (p.piece :: ·) ih

namespace HeadReading

variable (r : HeadReading)

/-- The gap and the stars in front of the name are no part of a word. -/
theorem isWord_of_mem_gap_stars : ∀ x ∈ r.gap ++ r.stars, Text.isWord x = false := by
  intro x hx
  rcases List.mem_append.1 hx with hx | hx
  · exact Text.isWord_of_isBlank (r.gap_blank x hx)
  · rw [r.stars_stars x hx]
    rfl

theorem isWord_of_mem_getLast?_front : ∀ x ∈ r.front.getLast?, Text.isWord x = false := by
  intro x hx
  have hne : r.gap ++ r.stars ≠ [] := List.append_ne_nil_of_left_ne_nil r.gap_ne _
  rw [front, List.getLast?_append_of_ne_nil _ hne] at hx
  exact r.isWord_of_mem_gap_stars x (List.mem_of_mem_getLast? hx)

theorem beforeBracket_line : beforeBracket r.line = r.front ++ r.name := by
  rw [beforeBracket, takeWhile_line, before, ← List.append_assoc]
  refine Text.dropEndWhile_append (fun x hx => ?_) r.space_blank
  rw [List.getLast?_append_of_ne_nil _ (isWord_iff.1 r.name_word).1] at hx
  exact isBlank_of_isWord r.name_word x (List.mem_of_mem_getLast? hx)

theorem frontOf_line : frontOf r.line = r.front := by
  rw [frontOf, beforeBracket_line]
  exact Text.dropEndWhile_append r.isWord_of_mem_getLast?_front (isWord_iff.1 r.name_word).2

/-- The return type is what is left of the text in front of the name without the stars and the
gap. -/
theorem returnType_eq : r.returnType =
    Text.dropEndWhile Text.isBlank (Text.dropEndWhile (· == '*') (frontOf r.line)) := by
  have hgap : ∀ x ∈ (r.returnType ++ r.gap).getLast?, (x == '*') = false := fun x hx => by
    rw [List.getLast?_append_of_ne_nil _ r.gap_ne] at hx
    by_contra hstar
    obtain rfl : x = '*' := by simpa using hstar
    cases r.gap_blank _ (List.mem_of_mem_getLast? hx)
  rw [frontOf_line, front, ← List.append_assoc,
    Text.dropEndWhile_append hgap (by simpa using r.stars_stars)]
  refine (Text.dropEndWhile_append ?_ r.gap_blank).symm
  exact HeadPart.isBlank_of_mem_getLast?_append r.parts (isWord_iff.1 r.first_word).1
    (isBlank_of_isWord r.first_word)

theorem maximalWords_front :
    maximalWords r.front = (Text.words r.returnType).filter isWord := by
  have hfirst : ∀ x ∈ r.first, (!Text.isWord x) = false := by
    simpa using (isWord_iff.1 r.first_word).2
  have hrest : ∀ x ∈ (HeadPart.text r.parts ++ (r.gap ++ r.stars)).head?,
      (!Text.isWord x) = true := by
    intro x hx
    have hblank := HeadPart.isBlank_of_mem_head?_text (r.isBlank_of_mem_head?_gap _) r.parts x hx
    rw [Text.isWord_of_isBlank hblank]
    rfl
  have hgap : maximalWords (r.gap ++ r.stars) = [] :=
    Text.splitRuns_gap (by simpa using r.isWord_of_mem_gap_stars)
  rw [front, returnType, List.append_assoc, maximalWords,
    Text.splitRuns_run_append (isWord_iff.1 r.first_word).1 hfirst hrest, ← returnType,
    words_returnType, List.filter_cons, if_pos r.first_word]
  refine congrArg (r.first :: ·) ((HeadPart.maximalWords_text_append r.parts ?_).trans ?_)
  · exact fun x hx => r.isWord_of_mem_gap_stars x (List.mem_of_mem_head? hx)
  · rw [hgap, List.append_nil]

/-- The words of a head are told by the line. -/
theorem told_line :
    FunctionHead.told r.line = ⟨(Text.words r.returnType).filter isWord, r.name⟩ := by
  have hname := (isWord_iff.1 r.name_word).2
  have hlast : (r.front ++ r.name).reverse.takeWhile Text.isWord = r.name.reverse := by
    rw [List.reverse_append, List.takeWhile_append_of_pos (by simpa using hname),
      Text.takeWhile_reverse_eq_nil r.isWord_of_mem_getLast?_front, List.append_nil]
  rw [FunctionHead.told, frontOf_line, beforeBracket_line, hlast, maximalWords_front,
    List.reverse_reverse]

end HeadReading

namespace FunctionHead

/-- Only the words of a head decide what it defines. -/
theorem symbol_filter (h : FunctionHead) :
    symbol ⟨h.specifiers.filter isWord, h.name⟩ = h.symbol := by
  have hstatic : isWord "static".toList := by decide
  have hmem : (h.specifiers.filter isWord).contains "static".toList =
      h.specifiers.contains "static".toList := by
    rw [Bool.eq_iff_iff]
    simp only [List.contains_iff_mem, List.mem_filter, hstatic, and_true]
  rw [symbol, hmem, symbol]

theorem isDefinition_filter (h : FunctionHead) :
    isDefinition ⟨h.specifiers.filter isWord, h.name⟩ = h.isDefinition := by
  have hword : ∀ w ∈ keywords, isWord w := by decide
  have hany : (h.specifiers.filter isWord).any keywords.contains =
      h.specifiers.any keywords.contains := by
    rw [Bool.eq_iff_iff]
    simp only [List.any_eq_true, List.mem_filter, List.contains_iff_mem]
    constructor
    · rintro ⟨w, ⟨hw, -⟩, hk⟩
      exact ⟨w, hw, hk⟩
    · rintro ⟨w, hw, hk⟩
      exact ⟨w, ⟨hw, hword w hk⟩, hk⟩
  rw [isDefinition, hany, isDefinition]

end FunctionHead

end Source

end Layering
