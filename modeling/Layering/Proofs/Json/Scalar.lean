import Layering.Data.Json.Reader
import Layering.Data.Json.Writer
import Mathlib.Algebra.Ring.Int.Defs
import Mathlib.Algebra.Ring.Nat
import Mathlib.Data.List.Basic

/-!
# Scalars in JSON

A string is read as it was written, whatever characters it holds
(`readString_writeString`), and so is an integer of 64 bits, if what follows it does
not go on with the number (`readNumber_toString`).
-/

namespace Layering.Data.Json

variable {l : List Char}

/-! ## Strings -/

theorem hexDigit?_hexDigit : ∀ n < 16, hexDigit? (hexDigit n) = some n := by decide

/-- A character below `0x20` is read from its number in hexadecimal digits. -/
theorem hex4?_hexDigit {n : Nat} (h : n < 0x20) :
    hex4? '0' '0' (hexDigit (n / 16)) (hexDigit (n % 16)) = some n := by
  have hzero : hexDigit? '0' = some 0 := by decide
  rw [hex4?, hzero, hexDigit?_hexDigit _ (by omega), hexDigit?_hexDigit _ (by omega)]
  exact congrArg some (by omega)

namespace Chars

variable {s : Chars} {c : Char}

theorem pushUnit_toNat (h : c.toNat < 0x20) : s.pushUnit c.toNat = s.push c := by
  rw [pushUnit, if_neg (by omega), if_neg (by omega), Char.ofNat_toNat]

theorem foldl_push (done cs : List Char) :
    cs.foldl push ⟨done, none, true⟩ = ⟨cs.reverse ++ done, none, true⟩ := by
  induction cs generalizing done with
  | nil => rfl
  | cons c cs ih =>
    have hpush : push ⟨done, none, true⟩ c = ⟨c :: done, none, true⟩ := rfl
    rw [List.foldl_cons, hpush, ih, List.reverse_cons, List.append_assoc, List.singleton_append]

end Chars

variable {s : Chars} {c : Char}

theorem readString_escape {e : Char} (hu : e ≠ 'u') (h : escape? e = some c) :
    readString s ('\\' :: e :: l) = readString (s.push c) l := by
  rw [readString, h]
  exact fun _ _ _ _ _ he _ => hu he

/-- A character without an escape is read as it stands. -/
theorem readString_cons (hquote : c ≠ '"') (hbackslash : c ≠ '\\')
    (hc : ¬ c.toNat < 0x20) : readString s (c :: l) = readString (s.push c) l := by
  rw [readString, if_neg (by simpa [hc] using hbackslash)]
  · exact hquote
  · exact fun _ _ _ _ _ h _ => hbackslash h
  · exact fun _ _ h _ => hbackslash h

theorem readString_writeChar (s : Chars) (c : Char) (l : List Char) :
    readString s (writeChar c ++ l) = readString (s.push c) l := by
  unfold writeChar
  split
  iterate 7 · exact readString_escape (by decide) rfl
  · next hquote hbackslash _ _ _ _ _ =>
    split
    · next h =>
      simp only [List.cons_append, List.nil_append, readString, hex4?_hexDigit h,
        Chars.pushUnit_toNat h]
    · next h => exact readString_cons hquote hbackslash h

theorem readString_flatMap (s : Chars) (cs l : List Char) :
    readString s (cs.flatMap writeChar ++ l) = readString (cs.foldl .push s) l := by
  induction cs generalizing s with
  | nil => rfl
  | cons c cs ih =>
    rw [List.flatMap_cons, List.append_assoc, readString_writeChar, ih, List.foldl_cons]

/-- A string that was written is read, and the text after it is left. -/
theorem readString_writeString (s : String) (l : List Char) :
    readString ⟨[], none, true⟩ (s.toList.flatMap writeChar ++ '"' :: l) = (.text s, some l) := by
  rw [readString_flatMap, Chars.foldl_push, readString, Chars.node, List.append_nil,
    List.reverse_reverse, String.ofList_toList]
  rfl

/-! ## Integers -/

open Nat (toDigits ofDigitChars)

/-- Whether a text does not go on with a number that stands before it. -/
def endsNumber : List Char → Bool
  | [] => true
  | c :: _ => !c.isDigit && c != '.' && c != 'e' && c != 'E'

theorem isDigit_of_mem_toDigits {n : Nat} : ∀ c ∈ toDigits 10 n, c.isDigit :=
  fun _ => Nat.isDigit_of_mem_toDigits (by decide) (by decide)

/-- Decimal digits have no zero in front that they do not need. -/
theorem toDigits_eq_cons (n : Nat) :
    ∃ d ds, toDigits 10 n = d :: ds ∧ d.isDigit ∧ (d = '0' → ds = []) := by
  induction n using Nat.strongRecOn with
  | ind n ih =>
    by_cases h : n < 10
    · have hdigit : ∀ n < 10, n.digitChar.isDigit := by decide
      exact ⟨_, [], Nat.toDigits_of_lt_base h, hdigit n h, fun _ => rfl⟩
    · obtain ⟨d, ds, hdigits, hd, hzero⟩ := ih (n / 10) (by omega)
      refine ⟨d, ds ++ [(n % 10).digitChar], ?_, hd, fun h0 => ?_⟩
      · rw [Nat.toDigits_of_base_le (by decide) (by omega), hdigits, List.cons_append]
      · have hvalue := Nat.ofDigitChars_ten_toDigits (n := n / 10)
        rw [hdigits, h0, hzero h0] at hvalue
        have hzero : ofDigitChars 10 ['0'] 0 = 0 := rfl
        omega

theorem le_ofDigitChars (n : Nat) (l : List Char) : n ≤ ofDigitChars 10 l n := by
  rw [Nat.ofDigitChars_eq_ofDigitChars_zero]
  exact Nat.le_add_right_of_le (Nat.le_mul_of_pos_left n (Nat.pow_pos (by decide)))

/-- Digits are all taken if a 64-bit word holds their number. -/
theorem takeDigits_of_lt {n : Nat} (h : ofDigitChars 10 l n < 2 ^ 64) :
    takeDigits n l = (ofDigitChars 10 l n, l.length, 0) := by
  induction l generalizing n with
  | nil => rfl
  | cons c l ih =>
    rw [Nat.ofDigitChars_cons, Nat.mul_comm] at h ⊢
    rw [takeDigits, ih h]
    exact if_pos (Nat.lt_of_le_of_lt (le_ofDigitChars _ l) h)

theorem takeWhile_toDigits {n : Nat} (hl : endsNumber l) :
    (toDigits 10 n ++ l).takeWhile Char.isDigit = toDigits 10 n := by
  rw [List.takeWhile_append_of_pos isDigit_of_mem_toDigits]
  cases l with
  | nil => exact List.append_nil _
  | cons c l =>
    simp only [endsNumber, Bool.and_eq_true, Bool.not_eq_true'] at hl
    rw [List.takeWhile_cons_of_neg (by simp [hl.1.1.1]), List.append_nil]

theorem readUnsigned_toDigits {n : Nat} (hn : n < 2 ^ 64) (hl : endsNumber l) (negative : Bool) :
    readUnsigned negative (toDigits 10 n ++ l) =
      if negative then
        if n = 0 ∨ n > 2 ^ 63 then (floatNode true n 0, some l) else (.int (-n), some l)
      else (.int n, some l) := by
  have htake : takeDigits 0 (toDigits 10 n) = (n, (toDigits 10 n).length, 0) := by
    rw [takeDigits_of_lt (by rwa [Nat.ofDigitChars_ten_toDigits]), Nat.ofDigitChars_ten_toDigits]
  obtain ⟨d, ds, hdigits, -, hzero⟩ := toDigits_eq_cons n
  rw [readUnsigned, takeWhile_toDigits hl, List.drop_left, htake]
  simp only [hdigits]
  split
  · next h => cases h
  · next h =>
    injection h with h0 hds
    rw [hzero h0] at hds
    cases hds
  · cases l with
    | nil => simp
    | cons c l =>
      simp only [endsNumber, Bool.and_eq_true, bne_iff_ne] at hl
      obtain ⟨⟨⟨-, hdot⟩, he⟩, hE⟩ := hl
      simp [hdot, he, hE]

theorem toList_toString (n : Int) : (toString n).toList =
    if 0 ≤ n then toDigits 10 n.toNat else '-' :: toDigits 10 (-n).toNat := by
  have hrepr : toString n = n.repr := rfl
  rw [hrepr, Int.repr_eq_if]
  split
  · exact Nat.toList_repr
  · rw [String.toList_append, Nat.toList_repr]
    rfl

/-- An integer starts with a digit or a minus. -/
theorem toString_eq_cons (n : Int) :
    ∃ c r, (toString n).toList = c :: r ∧ (c.isDigit ∨ c = '-') := by
  rw [toList_toString]
  split
  · obtain ⟨d, ds, hdigits, hd, -⟩ := toDigits_eq_cons n.toNat
    exact ⟨d, ds, hdigits, .inl hd⟩
  · exact ⟨'-', _, rfl, .inr rfl⟩

/-- An integer that was written is read if a 64-bit word holds it. -/
theorem readNumber_toString {n : Int} (hle : -2 ^ 63 ≤ n) (hlt : n < 2 ^ 64) (hl : endsNumber l) :
    readNumber ((toString n).toList ++ l) = (.int n, some l) := by
  rw [toList_toString]
  split
  · next h =>
    obtain ⟨d, ds, hdigits, hd, -⟩ := toDigits_eq_cons n.toNat
    have hminus : d ≠ '-' := by
      rintro rfl
      cases hd
    have hread := readUnsigned_toDigits (n := n.toNat) (by omega) hl false
    rw [hdigits, List.cons_append] at hread ⊢
    rw [readNumber, hread, if_neg Bool.false_ne_true, Int.toNat_of_nonneg h]
    exact fun _ heq => hminus (List.cons.inj heq).1
  · next h =>
    rw [List.cons_append, readNumber, readUnsigned_toDigits (by omega) hl, if_pos rfl,
      if_neg (by omega), Int.toNat_of_nonneg (by omega), Int.neg_neg]

end Layering.Data.Json
