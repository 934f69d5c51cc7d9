import Layering.Path.Bytes
import Layering.Proofs.NormalForm
import Layering.Proofs.Path
import Layering.Proofs.Text.Utf8

/-!
# The parts of a path

The last component, the extension and the stem of a path fit each other: with its extension the
stem is the path, and without an extension the last component has no dot but a first one
(`Path.split?_eq_none_iff`). Cut out of the bytes of a path, the parts are the bytes of its parts
(`Path.Bytes.basename_encode`, `Path.Bytes.extension?_encode`, `Path.Bytes.stem_encode`), so no
cut is inside a character.

* `Path.parts_fit`: how the parts of any path fit.
-/

namespace Layering.Path

variable {l s e : List Char}

/-! ## Last components -/

/-- A path is what stands in front of its last component and that. -/
theorem exists_eq_append_lastComponent (l : List Char) : ∃ front,
    l = front ++ lastComponent l ∧ (∀ c ∈ front.getLast?, isSeparator c) ∧
      ∀ c ∈ lastComponent l, isSeparator c = false := by
  have happend := List.takeWhile_append_dropWhile (p := (!isSeparator ·)) (l := l.reverse)
  refine ⟨(l.reverse.dropWhile (!isSeparator ·)).reverse, ?_, fun c hc => ?_, fun c hc => ?_⟩
  · rw [lastComponent, ← List.reverse_append, happend, List.reverse_reverse]
  · rw [List.getLast?_reverse] at hc
    have hhead := List.head?_dropWhile_not (!isSeparator ·) l.reverse
    rw [hc] at hhead
    simpa using hhead
  · simpa using List.mem_takeWhile_imp (List.mem_reverse.1 hc)

theorem lastComponent_append_dot (he : IsExtension e) (s : List Char) :
    lastComponent (s ++ '.' :: e) = lastComponent s ++ '.' :: e := by
  rw [lastComponent, takeWhile_reverse_append he]
  simp

/-- A path is cut at the last dot of its last component, unless that is the first character. -/
theorem isSome_split?_of_dot (hdot : '.' ∈ (lastComponent l).tail) : (split? l).isSome := by
  obtain ⟨front, hl, -, hplain⟩ := exists_eq_append_lastComponent l
  obtain ⟨c, name, hname⟩ : ∃ c name, lastComponent l = c :: name := by
    refine List.exists_cons_of_ne_nil fun hnil => ?_
    rw [hnil] at hdot
    cases hdot
  rw [hname] at hl hdot hplain
  rw [List.tail_cons] at hdot
  -- the last dot
  obtain ⟨e, s, hrev, he⟩ := List.eq_append_cons_of_mem (List.mem_reverse.2 hdot)
  have hsplit : name = s.reverse ++ '.' :: e.reverse := by
    rw [← List.reverse_reverse name, hrev]
    simp
  refine Option.isSome_iff_exists.2 ⟨(front ++ c :: s.reverse, e.reverse), ?_⟩
  refine split?_eq_some_iff.2 ⟨by simp [hl, hsplit], ?_, fun x hx => ?_⟩
  · rw [ne_eq, lastComponent_eq_nil_iff]
    intro hlast
    obtain ⟨x, hx⟩ : ∃ x, (c :: s.reverse).getLast? = some x := by simp [List.getLast?_cons]
    have hmem : x ∈ c :: name := by
      have hmem := List.mem_of_getLast? hx
      simp only [hsplit, List.mem_cons, List.mem_append] at hmem ⊢
      exact hmem.imp_right .inl
    have hsep := hlast x (by simp [List.getLast?_append, hx])
    cases (hplain x hmem).symm.trans hsep
  · refine ⟨fun h => he (h ▸ List.mem_reverse.1 hx), ?_⟩
    rw [hplain x (by simp [hsplit, List.mem_reverse.1 hx])]
    exact Bool.false_ne_true

/-- A path has no extension if no dot stands behind the first character of its last component. -/
theorem split?_eq_none_iff : split? l = none ↔ '.' ∉ (lastComponent l).tail := by
  refine ⟨fun hnone hdot => ?_, fun hdot => Option.eq_none_iff_forall_ne_some.2 fun ⟨s, e⟩ h => ?_⟩
  · have hsome := isSome_split?_of_dot hdot
    rw [hnone] at hsome
    cases hsome
  · obtain ⟨rfl, hs, he⟩ := split?_eq_some_iff.1 h
    obtain ⟨c, name, hname⟩ := List.exists_cons_of_ne_nil hs
    refine hdot ?_
    rw [lastComponent_append_dot he, hname]
    exact List.mem_append_right _ List.mem_cons_self

/-! ## Parts of bytes -/

namespace Bytes

variable {name : List UInt8} {i : Nat}

theorem dot?_eq_none_iff : dot? name = none ↔ 0x2E ∉ name := by
  induction name with
  | nil => simp [dot?]
  | cons b l ih =>
    rw [dot?]
    split
    · next i hi => simp [← ih, hi]
    · next hnone => simp [← ih, hnone, eq_comm]

theorem dot?_append {e : List UInt8} (he : 0x2E ∉ e) (s : List UInt8) :
    dot? (s ++ 0x2E :: e) = some s.length := by
  induction s with
  | nil => simp [dot?, dot?_eq_none_iff.2 he]
  | cons b s ih => simp [dot?, ih]

/-- There is a dot at the offset. -/
theorem exists_of_dot?_eq_some (h : dot? name = some i) :
    ∃ s e, name = s ++ 0x2E :: e ∧ s.length = i := by
  have hmem : 0x2E ∈ name.reverse := by
    by_contra hnot
    cases (dot?_eq_none_iff.2 (mt List.mem_reverse.2 hnot)).symm.trans h
  -- the offset is that of the last dot, since there is one
  obtain ⟨e, s, hrev, he⟩ := List.eq_append_cons_of_mem hmem
  have hname : name = s.reverse ++ 0x2E :: e.reverse := by
    rw [← List.reverse_reverse name, hrev]
    simp
  refine ⟨_, _, hname, Option.some.inj ?_⟩
  rw [← h, hname, dot?_append (mt List.mem_reverse.1 he)]

theorem basename_append {front : List UInt8} (hname : ∀ b ∈ name, isSeparator b = false)
    (hfront : ∀ b ∈ front.getLast?, isSeparator b) : basename (front ++ name) = name := by
  have hstop : front.reverse.takeWhile (!isSeparator ·) = [] := by
    rw [List.getLast?_eq_head?_reverse] at hfront
    cases hrev : front.reverse with
    | nil => rfl
    | cons b r =>
      have hb : isSeparator b := hfront b (by rw [hrev]; rfl)
      exact List.takeWhile_cons_of_neg (by simp [hb])
  rw [basename, List.reverse_append, List.takeWhile_append_of_pos (by simpa using hname), hstop,
    List.append_nil, List.reverse_reverse]

theorem isSeparator_of_mem_encode (hl : ∀ c ∈ l, Path.isSeparator c = false) :
    ∀ b ∈ Text.encode l, isSeparator b = false := by
  intro b hb
  by_contra hsep
  have hsep : b = 0x2F ∨ b = 0x5C := by simpa [isSeparator, -not_or, or_iff_not_imp_left] using hsep
  rcases hsep with rfl | rfl
  · cases hl '/' ((Text.mem_encode_iff rfl (by decide)).1 hb)
  · cases hl '\\' ((Text.mem_encode_iff rfl (by decide)).1 hb)

theorem basename_encode (l : List Char) :
    basename (Text.encode l) = Text.encode (lastComponent l) := by
  obtain ⟨front, hl, hfront, hplain⟩ := exists_eq_append_lastComponent l
  conv_lhs => rw [hl, Text.encode_append]
  refine basename_append (isSeparator_of_mem_encode hplain) ?_
  obtain rfl | ⟨f, c, rfl⟩ := List.eq_nil_or_concat' front
  · exact nofun
  · have hc : c = '/' ∨ c = '\\' := by simpa [Path.isSeparator] using hfront c (by simp)
    rcases hc with rfl | rfl <;>
    · rw [Text.encode_append]
      simp [Text.encode, Text.encodeChar, isSeparator]

theorem encodeChar_dot : Text.encodeChar '.' = [0x2E] := rfl

theorem encode_append_dot (s e : List Char) :
    Text.encode (s ++ '.' :: e) = Text.encode s ++ 0x2E :: Text.encode e := by
  rw [Text.encode_append]
  rfl

theorem extension?_encode_of_eq_some (h : split? l = some (s, e)) :
    extension? (Text.encode l) = some (Text.encode e) := by
  obtain ⟨rfl, hs, he⟩ := split?_eq_some_iff.1 h
  have hplain : 0x2E ∉ Text.encode e := fun hmem =>
    (he '.' ((Text.mem_encode_iff encodeChar_dot (by decide)).1 hmem)).1 rfl
  obtain ⟨k, hk⟩ : ∃ k, (Text.encode (lastComponent s)).length = k + 1 := by
    refine Nat.exists_eq_add_one.2 (List.length_pos_iff.2 fun hnil => hs ?_)
    exact Text.encode_inj hnil
  rw [extension?, basename_encode, lastComponent_append_dot he, encode_append_dot,
    dot?_append hplain, hk, ← hk]
  simp [List.drop_append, hk]

theorem extension?_encode_of_eq_none (h : split? l = none) :
    extension? (Text.encode l) = none := by
  have htail := split?_eq_none_iff.1 h
  rw [extension?, basename_encode]
  cases hi : dot? (Text.encode (lastComponent l)) with
  | none => rfl
  | some i =>
    obtain ⟨s, e, hbytes, rfl⟩ := exists_of_dot?_eq_some hi
    obtain ⟨l₁, l₂, hl, rfl, -⟩ := Text.encode_eq_append_cons encodeChar_dot (by decide) hbytes
    cases l₁ with
    | nil => rfl
    | cons c r =>
      rw [hl] at htail
      exact absurd (List.mem_append_right r List.mem_cons_self) htail

/-- The extension of a path is cut out of its bytes. -/
theorem extension?_encode (l : List Char) :
    extension? (Text.encode l) = (split? l).map fun s => Text.encode s.2 := by
  cases h : split? l with
  | none => exact extension?_encode_of_eq_none h
  | some q => exact extension?_encode_of_eq_some h

/-- The stem of a path is cut out of its bytes. -/
theorem stem_encode (l : List Char) :
    stem (Text.encode l) = Text.encode (((split? l).map Prod.fst).getD l) := by
  rw [stem, extension?_encode]
  cases hsplit : split? l with
  | none => rfl
  | some q =>
    obtain ⟨s, e⟩ := q
    obtain ⟨rfl, -, -⟩ := split?_eq_some_iff.1 hsplit
    have hlength : (Text.encode s ++ 0x2E :: Text.encode e).length - (Text.encode e).length - 1 =
        (Text.encode s).length := by
      rw [List.length_append, List.length_cons]
      omega
    simp only [Option.map_some, Option.getD_some]
    rw [encode_append_dot, hlength, List.take_left]

end Bytes

/-! ## How the parts fit -/

/-- The bytes of a path. -/
def bytes (p : String) : List UInt8 := Text.encode p.toList

variable {p ext : String}

/-- An extension is cut off in front of a character. -/
theorem isValid_of_extension? (h : extension? p = some ext) :
    (⟨p.utf8ByteSize - ext.utf8ByteSize - 1⟩ : String.Pos.Raw).IsValid p := by
  have hp := eq_withExtension h
  refine String.Pos.Raw.isValid_iff_exists_append.2 ⟨stem p, "." ++ ext, ?_, ?_⟩
  · rw [← String.append_assoc]
    exact hp
  · have hsize : p.utf8ByteSize = (stem p).utf8ByteSize + 1 + ext.utf8ByteSize := by
      conv_lhs => rw [hp]
      rw [withExtension, String.utf8ByteSize_append, String.utf8ByteSize_append]
      rfl
    apply String.Pos.Raw.ext
    show p.utf8ByteSize - ext.utf8ByteSize - 1 = (stem p).utf8ByteSize
    omega

theorem isExtension_iff :
    IsExtension ext.toList ↔ ∀ c ∈ ext.toList, c ≠ '.' ∧ c ≠ '/' ∧ c ≠ '\\' := by
  simp [IsExtension, isSeparator]

/-- A path with an extension is its stem, a dot and the extension, which holds no dots and
separators and is cut off in front of a character. Without an extension the stem is the path, and
the last component has no dot but a first one. Another extension can be put in the place of that
of a path. The bytes of the parts are cut out of the bytes of the path. -/
theorem parts_fit (p : String) :
    (∀ e, extension? p = some e → p = stem p ++ "." ++ e ∧
      (∀ c ∈ e.toList, c ≠ '.' ∧ c ≠ '/' ∧ c ≠ '\\') ∧ basename (stem p) ≠ "" ∧
      (⟨p.utf8ByteSize - e.utf8ByteSize - 1⟩ : String.Pos.Raw).IsValid p) ∧
    (extension? p = none → stem p = p ∧ '.' ∉ (basename p).toList.tail) ∧
    (∀ e : String, (∀ c ∈ e.toList, c ≠ '.' ∧ c ≠ '/' ∧ c ≠ '\\') → (extension? p).isSome →
      extension? (stem p ++ "." ++ e) = some e ∧ stem (stem p ++ "." ++ e) = stem p) ∧
    Bytes.basename (bytes p) = bytes (basename p) ∧
    Bytes.extension? (bytes p) = (extension? p).map bytes ∧
    Bytes.stem (bytes p) = bytes (stem p) := by
  refine ⟨fun e h => ⟨eq_withExtension h, ?_, ?_, isValid_of_extension? h⟩, fun h => ?_,
    fun e he h => ?_, ?_, ?_, ?_⟩
  · obtain ⟨⟨s, e⟩, hs, rfl⟩ := Option.map_eq_some_iff.1 h
    rw [← isExtension_iff, String.toList_ofList]
    exact (split?_eq_some_iff.1 hs).2.2
  · obtain ⟨⟨s, e⟩, hs, rfl⟩ := Option.map_eq_some_iff.1 h
    have hstem : stem p = String.ofList s := by rw [stem, hs]
    rw [hstem, ne_eq, basename_eq_empty_iff, String.toList_ofList]
    exact (split?_eq_some_iff.1 hs).2.1
  · have hnone : split? p.toList = none := Option.map_eq_none_iff.1 h
    refine ⟨by rw [stem, hnone], ?_⟩
    rw [basename, String.toList_ofList]
    exact split?_eq_none_iff.1 hnone
  · have he := isExtension_iff.2 he
    exact ⟨extension?_withExtension h he, stem_withExtension h he⟩
  · rw [bytes, Bytes.basename_encode, bytes, basename, String.toList_ofList]
  · rw [bytes, Bytes.extension?_encode, extension?, Option.map_map]
    congr 1
    funext s
    exact congrArg Text.encode String.toList_ofList.symm
  · rw [bytes, Bytes.stem_encode, bytes, stem]
    cases split? p.toList with
    | none => rfl
    | some s => rw [String.toList_ofList]; rfl

/-- A path with letters of several bytes and several dots. -/
def archivePath : String := "src\\größe/ß.tar.gz"

/-- Only the last extension is replaced, and the cut is behind a letter of two bytes. -/
theorem parts_fit_archive : extension? archivePath = some "gz" ∧
    stem archivePath = "src\\größe/ß.tar" ∧
    extension? (stem archivePath ++ "." ++ "h") = some "h" ∧
    stem (stem archivePath ++ "." ++ "h") = stem archivePath ∧
    (⟨18⟩ : String.Pos.Raw).IsValid archivePath := by
  have hext : extension? archivePath = some "gz" := by decide +kernel
  obtain ⟨hcut, -, hput, -⟩ := parts_fit archivePath
  obtain ⟨hext', hstem'⟩ := hput "h" (by simp) (by rw [hext]; rfl)
  exact ⟨hext, by decide +kernel, hext', hstem', (hcut "gz" hext).2.2.2⟩

end Layering.Path
