import Layering.Proofs.Json.Scalar
import Mathlib.Data.List.TakeWhile

/-!
# Values in JSON

A tree without tags, whose containers are whole and whose keys are texts, is what a
reader makes of the text that was written for it, in either layout
(`Faithful.readBack`). The fuel that the reader has lasts: every level and every item
uses up at least one character of the text.
-/

namespace Layering.Data.Json

/-- Trees that a JSON text holds as they are. -/
inductive Faithful : Node → Prop
  | null : Faithful .null
  | bool (b : Bool) : Faithful (.bool b)
  | int {n : Int} (hle : -2 ^ 63 ≤ n) (hlt : n < 2 ^ 64) : Faithful (.int n)
  | text (s : String) : Faithful (.text s)
  | ofList {items : List Node} (h : ∀ n ∈ items, Faithful n) : Faithful (.ofList items)
  | ofFields {fields : List (String × Node)} (h : ∀ f ∈ fields, Faithful f.2) :
    Faithful (.ofFields fields)

variable {y : Layout} {level outer fuel : Nat} {n : Node} {items : List Node}
  {fields : List (String × Node)} {c ends : Char} {b l rest t : List Char}

/-! ## Blanks -/

theorem skipSpace_cons (h : isSpace c = false) : skipSpace (c :: l) = c :: l :=
  List.dropWhile_cons_of_neg (by simp [h])

theorem skipSpace_append (h : ∀ c ∈ b, isSpace c) : skipSpace (b ++ l) = skipSpace l :=
  List.dropWhile_append_of_pos h

theorem isSpace_of_mem_lead : ∀ c ∈ y.lead level, isSpace c := by
  intro c hc
  rw [Layout.lead] at hc
  split at hc
  · rcases List.mem_cons.1 hc with rfl | hc
    · rfl
    · obtain rfl := List.eq_of_mem_replicate hc
      rfl
  · cases hc

theorem Layout.colon_eq (y : Layout) : ∃ b, y.colon = ':' :: b ∧ ∀ c ∈ b, isSpace c := by
  rw [Layout.colon]
  split
  · exact ⟨[' '], rfl, List.all_eq_true.1 rfl⟩
  · exact ⟨[], rfl, List.forall_mem_nil _⟩

theorem readValue_append (h : ∀ c ∈ b, isSpace c) : readValue fuel (b ++ l) = readValue fuel l := by
  cases fuel with
  | zero => rw [readValue, readValue]
  | succ fuel => rw [readValue, readValue, skipSpace_append h]

/-- Blanks end a number. -/
theorem endsNumber_append (hb : ∀ c ∈ b, isSpace c) (hl : endsNumber l) : endsNumber (b ++ l) := by
  cases b with
  | nil => exact hl
  | cons c b =>
    have hc : c = ' ' ∨ c = '\n' ∨ c = '\t' ∨ c = '\r' := by
      simpa [isSpace, or_assoc] using hb c (List.mem_cons_self ..)
    rcases hc with rfl | rfl | rfl | rfl <;> rfl

/-! ## Delimiters -/

namespace Delimiter

theorem read_close (hb : ∀ c ∈ b, isSpace c) (hends : isSpace ends = false) (fresh : Bool) :
    read ends fresh (b ++ ends :: l) = .close l := by
  rw [read, skipSpace_append hb, skipSpace_cons hends]
  exact if_pos rfl

theorem read_first (hb : ∀ c ∈ b, isSpace c) (hc : isSpace c = false) (hne : c ≠ ends) :
    read ends true (b ++ c :: l) = .next (c :: l) := by
  rw [read, skipSpace_append hb, skipSpace_cons hc]
  exact if_neg hne

theorem read_next (hb : ∀ c ∈ b, isSpace c) (hc : isSpace c = false) (hne : c ≠ ends)
    (hends : ',' ≠ ends) : read ends false (',' :: (b ++ c :: l)) = .next (c :: l) := by
  have hcomma : isSpace ',' = false := rfl
  simp only [read, skipSpace_cons hcomma, skipSpace_append hb, skipSpace_cons hc, if_neg hends,
    if_neg hne, if_true, Bool.false_eq_true, if_false]

end Delimiter

/-- Characters that no number starts with: those of other values, of the end of a
sequence, and blanks. -/
def notNumbers : List Char := ['"', '[', ']', '{', 'n', 't', 'f', ' ', '\n', '\t', '\r']

theorem not_mem_notNumbers (h : c.isDigit ∨ c = '-') : c ∉ notNumbers := by
  have hall : notNumbers.all fun d => !(d.isDigit || d == '-') := rfl
  intro hc
  have hnot := List.all_eq_true.1 hall c hc
  simp only [Bool.not_eq_true', Bool.or_eq_false_iff, beq_eq_false_iff_ne] at hnot
  rcases h with h | h
  · rw [h] at hnot
    cases hnot.1
  · exact hnot.2 h

/-! ## Items -/

/-- A tree starts with a character that is no blank and closes no sequence. -/
theorem Faithful.write_eq_cons (h : Faithful n) (y : Layout) (level : Nat) :
    ∃ c r, write y level n = c :: r ∧ isSpace c = false ∧ c ≠ ']' := by
  cases h with
  | null => exact ⟨'n', _, rfl, rfl, by decide⟩
  | bool b => cases b <;> exact ⟨_, _, rfl, rfl, by decide⟩
  | @int n =>
    obtain ⟨c, r, hc, hstart⟩ := toString_eq_cons n
    have hne := not_mem_notNumbers hstart
    simp only [notNumbers, List.mem_cons, List.not_mem_nil, or_false, not_or] at hne
    exact ⟨c, r, hc, by simp [isSpace, hne], hne.2.2.1⟩
  | text s => exact ⟨'"', _, rfl, rfl, by decide⟩
  | @ofList items => cases items <;> exact ⟨'[', _, rfl, rfl, by decide⟩
  | @ofFields fields => cases fields <;> exact ⟨'{', _, rfl, rfl, by decide⟩

theorem Faithful.length_write_pos (h : Faithful n) (y : Layout) (level : Nat) :
    0 < (write y level n).length := by
  obtain ⟨c, r, hc, -⟩ := h.write_eq_cons y level
  rw [hc]
  exact Nat.succ_pos _

/-- A tree is read as it was written, and the text after it is left. -/
def ReadBack (y : Layout) (n : Node) : Prop :=
  ∀ level fuel l, endsNumber l → (write y level n).length ≤ fuel + 1 →
    readValue (fuel + 1) (write y level n ++ l) = (n, some l)

theorem readItems_close (hb : ∀ c ∈ b, isSpace c) (fuel : Nat) (fresh : Bool) (l : List Char) :
    readItems (fuel + 1) fresh (b ++ ']' :: l) = ([], some l) := by
  rw [readItems, Delimiter.read_close hb rfl]

theorem readItems_next {fresh : Bool} (hd : Delimiter.read ']' fresh t = .next b)
    (hn : readValue fuel b = (n, some rest)) (hi : readItems fuel false rest = (items, some l)) :
    readItems (fuel + 1) fresh t = (n :: items, some l) := by
  rw [readItems, hd]
  simp only [hn, hi]

theorem endsNumber_writeItems :
    endsNumber (writeItems y level items ++ (y.lead outer ++ ']' :: l)) := by
  cases items with
  | nil =>
    rw [writeItems, List.nil_append]
    exact endsNumber_append isSpace_of_mem_lead rfl
  | cons n items =>
    rw [writeItems]
    rfl

/-- The items after the first are read up to the end of the sequence. -/
theorem readItems_writeItems (level outer : Nat) (l : List Char) (h : ∀ n ∈ items, Faithful n)
    (hread : ∀ n ∈ items, ReadBack y n) (hfuel : (writeItems y level items).length < fuel) :
    readItems fuel false (writeItems y level items ++ (y.lead outer ++ ']' :: l)) =
      (items, some l) := by
  induction items generalizing fuel with
  | nil =>
    obtain ⟨fuel, rfl⟩ := Nat.exists_eq_succ_of_ne_zero (Nat.ne_zero_of_lt hfuel)
    rw [writeItems, List.nil_append]
    exact readItems_close isSpace_of_mem_lead fuel false l
  | cons n items ih =>
    obtain ⟨hn, hitems⟩ := List.forall_mem_cons.1 h
    obtain ⟨hreadn, hreaditems⟩ := List.forall_mem_cons.1 hread
    obtain ⟨c, r, hc, hspace, hne⟩ := hn.write_eq_cons y level
    have hpos := hn.length_write_pos y level
    simp only [writeItems, List.length_cons, List.length_append] at hfuel
    simp only [writeItems, List.cons_append, List.append_assoc]
    -- The comma pays for this step, and the item for its own first one.
    obtain ⟨fuel, rfl⟩ := Nat.exists_eq_add_of_le' (show 2 ≤ fuel by omega)
    refine readItems_next (b := write y level n ++ _) ?_
      (hreadn level fuel _ endsNumber_writeItems (by omega)) (ih hitems hreaditems (by omega))
    rw [hc]
    exact Delimiter.read_next isSpace_of_mem_lead hspace hne (by decide)

/-! ## Entries -/

/-- The entries of a mapping with text keys. -/
def entriesOf (fields : List (String × Node)) : List (Node × Node) :=
  fields.map fun f => (.text f.1, f.2)

theorem readEntries_close (hb : ∀ c ∈ b, isSpace c) (fuel : Nat) (fresh : Bool) (l : List Char) :
    readEntries (fuel + 1) fresh (b ++ '}' :: l) = ([], some l) := by
  rw [readEntries, Delimiter.read_close hb rfl]

theorem readEntries_next {fresh : Bool} {k : String}
    (hd : Delimiter.read '}' fresh t = .next (writeString k ++ (y.colon ++ b)))
    (hn : readValue fuel b = (n, some rest))
    (he : readEntries fuel false rest = (entriesOf fields, some l)) :
    readEntries (fuel + 1) fresh t = (entriesOf ((k, n) :: fields), some l) := by
  obtain ⟨blanks, hcolon, hblanks⟩ := y.colon_eq
  have hkey : readString ⟨[], none, true⟩ (k.toList.flatMap writeChar ++ '"' :: (y.colon ++ b)) =
    (.text k, some (y.colon ++ b)) := readString_writeString k _
  rw [readEntries, hd, writeString]
  simp only [List.cons_append, List.append_assoc, List.nil_append, hkey]
  rw [hcolon, List.cons_append, skipSpace_cons rfl]
  simp only [readValue_append hblanks, hn, he]
  rfl

theorem endsNumber_writeEntries :
    endsNumber (writeEntries y level (entriesOf fields) ++ (y.lead outer ++ '}' :: l)) := by
  cases fields with
  | nil =>
    rw [entriesOf, List.map_nil, writeEntries, List.nil_append]
    exact endsNumber_append isSpace_of_mem_lead rfl
  | cons f fields =>
    rw [entriesOf, List.map_cons, writeEntries]
    rfl

/-- The entries after the first are read up to the end of the mapping. -/
theorem readEntries_writeEntries (level outer : Nat) (l : List Char)
    (hread : ∀ f ∈ fields, ReadBack y f.2)
    (hfuel : (writeEntries y level (entriesOf fields)).length < fuel) :
    readEntries fuel false (writeEntries y level (entriesOf fields) ++ (y.lead outer ++ '}' :: l)) =
      (entriesOf fields, some l) := by
  induction fields generalizing fuel with
  | nil =>
    obtain ⟨fuel, rfl⟩ := Nat.exists_eq_succ_of_ne_zero (Nat.ne_zero_of_lt hfuel)
    rw [entriesOf, List.map_nil, writeEntries, List.nil_append]
    exact readEntries_close isSpace_of_mem_lead fuel false l
  | cons f fields ih =>
    obtain ⟨hreadf, hreadfields⟩ := List.forall_mem_cons.1 hread
    have hcons : entriesOf (f :: fields) = (.text f.1, f.2) :: entriesOf fields := rfl
    have hkey : 0 < (writeScalar (.text f.1)).length := Nat.succ_pos _
    rw [hcons, writeEntries] at hfuel ⊢
    simp only [List.length_cons, List.length_append] at hfuel
    simp only [List.cons_append, List.append_assoc]
    obtain ⟨fuel, rfl⟩ := Nat.exists_eq_add_of_le' (show 2 ≤ fuel by omega)
    refine readEntries_next (y := y) ?_
      (hreadf level fuel _ endsNumber_writeEntries (by omega)) (ih hreadfields (by omega))
    exact Delimiter.read_next isSpace_of_mem_lead rfl (by decide) (by decide)

/-! ## Values -/

theorem readWord_append (word : List Char) (n : Node) (l : List Char) :
    readWord word n (word ++ l) = (n, some l) := by
  rw [readWord, if_pos (List.isPrefixOf_iff_prefix.2 (List.prefix_append word l)), List.drop_left]

/-- What starts neither a string nor a container nor a word is read as a number. -/
theorem readValue_number (h : c.isDigit ∨ c = '-') :
    readValue (fuel + 1) (c :: l) = readNumber (c :: l) := by
  have hne := not_mem_notNumbers h
  simp only [notNumbers, List.mem_cons, List.not_mem_nil, or_false, not_or] at hne
  simp [readValue, skipSpace_cons (c := c) (l := l) (by simp [isSpace, hne]), hne]

theorem readValue_list (h : readItems fuel true t = (items, some l)) :
    readValue (fuel + 1) ('[' :: t) = (.ofList items, some l) := by
  rw [readValue, skipSpace_cons rfl]
  simp only [h]
  rfl

theorem readValue_map (h : readEntries fuel true t = (entriesOf fields, some l)) :
    readValue (fuel + 1) ('{' :: t) = (.ofFields fields, some l) := by
  rw [readValue, skipSpace_cons rfl]
  simp only [h]
  rfl

theorem readBack_ofList (h : ∀ n ∈ items, Faithful n) (hread : ∀ n ∈ items, ReadBack y n) :
    ReadBack y (.ofList items) := by
  intro level fuel l _ hfuel
  cases items with
  | nil =>
    obtain ⟨fuel, rfl⟩ := Nat.exists_eq_add_of_le' (Nat.le_of_succ_le_succ hfuel)
    exact readValue_list (readItems_close (List.forall_mem_nil _) fuel true l)
  | cons n items =>
    have hwrite : write y level (.ofList (n :: items)) = '[' :: (y.lead (level + 1) ++
        write y (level + 1) n ++ writeItems y (level + 1) items ++ y.lead level ++ [']']) := rfl
    obtain ⟨hn, hitems⟩ := List.forall_mem_cons.1 h
    obtain ⟨hreadn, hreaditems⟩ := List.forall_mem_cons.1 hread
    obtain ⟨c, r, hc, hspace, hne⟩ := hn.write_eq_cons y (level + 1)
    have hpos := hn.length_write_pos y (level + 1)
    rw [hwrite] at hfuel ⊢
    simp only [List.length_cons, List.length_append] at hfuel
    obtain ⟨fuel, rfl⟩ := Nat.exists_eq_add_of_le' (show 2 ≤ fuel by omega)
    simp only [List.cons_append, List.append_assoc, List.nil_append]
    have hrest := readItems_writeItems (level + 1) level l hitems hreaditems
      (show _ < fuel + 1 by omega)
    refine readValue_list (readItems_next (b := write y (level + 1) n ++ _) ?_
      (hreadn (level + 1) fuel _ endsNumber_writeItems (by omega)) hrest)
    rw [hc]
    exact Delimiter.read_first isSpace_of_mem_lead hspace hne

theorem readBack_ofFields (hread : ∀ f ∈ fields, ReadBack y f.2) :
    ReadBack y (.ofFields fields) := by
  intro level fuel l _ hfuel
  cases fields with
  | nil =>
    obtain ⟨fuel, rfl⟩ := Nat.exists_eq_add_of_le' (Nat.le_of_succ_le_succ hfuel)
    exact readValue_map (readEntries_close (List.forall_mem_nil _) fuel true l)
  | cons f fields =>
    have hwrite : write y level (.ofFields (f :: fields)) = '{' :: (y.lead (level + 1) ++
        writeString f.1 ++ y.colon ++ write y (level + 1) f.2 ++
        writeEntries y (level + 1) (entriesOf fields) ++ y.lead level ++ ['}']) := rfl
    obtain ⟨hreadf, hreadfields⟩ := List.forall_mem_cons.1 hread
    have hkey : 0 < (writeString f.1).length := Nat.succ_pos _
    rw [hwrite] at hfuel ⊢
    simp only [List.length_cons, List.length_append] at hfuel
    obtain ⟨fuel, rfl⟩ := Nat.exists_eq_add_of_le' (show 2 ≤ fuel by omega)
    simp only [List.cons_append, List.append_assoc, List.nil_append]
    have hrest := readEntries_writeEntries (level + 1) level l hreadfields
      (show _ < fuel + 1 by omega)
    refine readValue_map (readEntries_next (y := y) ?_
      (hreadf (level + 1) fuel _ endsNumber_writeEntries (by omega)) hrest)
    exact Delimiter.read_first isSpace_of_mem_lead rfl (by decide)

/-- Whatever a text holds as it is, it is read as it was written. -/
theorem Faithful.readBack (h : Faithful n) (y : Layout) : ReadBack y n := by
  induction h with
  | null =>
    intro level fuel l _ _
    exact readWord_append ['n', 'u', 'l', 'l'] .null l
  | bool b =>
    intro level fuel l _ _
    cases b with
    | false => exact readWord_append ['f', 'a', 'l', 's', 'e'] (.bool false) l
    | true => exact readWord_append ['t', 'r', 'u', 'e'] (.bool true) l
  | @int n hle hlt =>
    intro level fuel l hl _
    obtain ⟨c, r, hc, hstart⟩ := toString_eq_cons n
    have hread := readNumber_toString hle hlt hl
    have hwrite : write y level (.int n) = (toString n).toList := rfl
    rw [hwrite, hc]
    rw [hc] at hread
    exact (readValue_number hstart).trans hread
  | text s =>
    intro level fuel l _ _
    have hwrite : write y level (.text s) = writeString s := rfl
    rw [hwrite, writeString, List.cons_append, List.append_assoc, readValue, skipSpace_cons rfl]
    exact readString_writeString s l
  | ofList h ih => exact readBack_ofList h ih
  | ofFields h ih => exact readBack_ofFields ih

/-! ## Documents -/

/-- A text that holds a tree, and blanks after it, is a document with that root. -/
theorem Document.read_write (h : Faithful n) (hb : ∀ c ∈ b, isSpace c) {s : String}
    (hs : s.toList = write y level n ++ b) : Document.read s = ⟨n, true⟩ := by
  have hend : endsNumber b := by
    simpa using endsNumber_append (l := []) hb rfl
  have hskip : skipSpace b = [] := List.dropWhile_eq_nil_iff.2 hb
  have hfuel : (write y level n).length ≤ 2 * (write y level n ++ b).length + 1 + 1 := by
    rw [List.length_append]
    omega
  rw [Document.read, hs, h.readBack y level _ b hend hfuel]
  simp only [hskip, List.isEmpty_nil]

/-- Decoding a tree that was written is decoding the tree. -/
theorem decode_write {α : Type} (d : Decoder α) (h : Faithful n) (y : Layout) {blanks : String}
    (hb : ∀ c ∈ blanks.toList, isSpace c) :
    decode d (String.ofList (write y 0 n) ++ blanks) = d .text fullRoom n := by
  have hs : (String.ofList (write y 0 n) ++ blanks).toList = write y 0 n ++ blanks.toList := by
    rw [String.toList_append, String.toList_ofList]
  rw [decode, Document.read_write h hb hs]
  cases d .text fullRoom n <;> rfl

theorem decode_pretty {α : Type} (d : Decoder α) (h : Faithful n) {blanks : String}
    (hb : ∀ c ∈ blanks.toList, isSpace c) :
    decode d (pretty n ++ blanks) = d .text fullRoom n := decode_write d h ⟨true⟩ hb

end Layering.Data.Json
