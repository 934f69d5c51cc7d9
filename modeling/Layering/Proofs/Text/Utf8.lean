import Layering.Text.Utf8
import Mathlib.Data.String.Basic

/-!
# UTF-8 as a code

Bytes are read as a text just if they are the bytes of that text (`decode?_eq_some_iff`).
So texts are known by their bytes (`encode_inj`), which have the same order
(`encode_lt_encode`).
-/

namespace Layering.Text

variable {a b d e low high : UInt8} {n k : Nat} {c c' : Char} {l m : List Char} {p q : Pending}
  {pre bytes : List UInt8}

/-! ## The bytes of a number -/

theorem toNat_ofNat (h : n.isValidChar) : (Char.ofNat n).toNat = n := by
  rw [Char.ofNat, dif_pos h]
  show (UInt32.ofNatLT n _).toNat = n
  exact UInt32.toNat_ofNatLT

theorem toNat_toUInt8 (h : n < 0x100) : n.toUInt8.toNat = n :=
  UInt8.toNat_ofNat'.trans (Nat.mod_eq_of_lt h)

theorem toUInt8_eq (h : a.toNat = n) : n.toUInt8 = a :=
  UInt8.toNat_inj.1 ((toNat_toUInt8 (h ▸ a.toNat_lt)).trans h.symm)

theorem encodeChar_one (h : n < 0x80) (ha : a.toNat = n) : encodeChar (Char.ofNat n) = [a] := by
  have hn : (Char.ofNat n).toNat = n := toNat_ofNat (.inl (by omega))
  rw [encodeChar, hn, if_pos h, toUInt8_eq ha]

theorem encodeChar_two (h : 0x80 ≤ n) (h' : n < 0x800) (ha : a.toNat = 0xC0 + n / 64)
    (hb : b.toNat = 0x80 + n % 64) : encodeChar (Char.ofNat n) = [a, b] := by
  have hn : (Char.ofNat n).toNat = n := toNat_ofNat (.inl (by omega))
  rw [encodeChar, hn, if_neg (by omega), if_pos h', toUInt8_eq ha, toUInt8_eq hb]

theorem encodeChar_three (h : 0x800 ≤ n) (h' : n < 0x10000) (hv : n.isValidChar)
    (ha : a.toNat = 0xE0 + n / 4096) (hb : b.toNat = 0x80 + n / 64 % 64)
    (hd : d.toNat = 0x80 + n % 64) : encodeChar (Char.ofNat n) = [a, b, d] := by
  rw [encodeChar, toNat_ofNat hv, if_neg (by omega), if_neg (by omega), if_pos h', toUInt8_eq ha,
    toUInt8_eq hb, toUInt8_eq hd]

theorem encodeChar_four (h : 0x10000 ≤ n) (hv : n.isValidChar)
    (ha : a.toNat = 0xF0 + n / 262144) (hb : b.toNat = 0x80 + n / 4096 % 64)
    (hd : d.toNat = 0x80 + n / 64 % 64) (he : e.toNat = 0x80 + n % 64) :
    encodeChar (Char.ofNat n) = [a, b, d, e] := by
  rw [encodeChar, toNat_ofNat hv, if_neg (by omega), if_neg (by omega), if_neg (by omega),
    toUInt8_eq ha, toUInt8_eq hb, toUInt8_eq hd, toUInt8_eq he]

/-! ## What a byte starts -/

theorem leadByte_one (h : b.toNat < 0x80) : leadByte b = some ⟨0, 0, 0, b.toNat⟩ :=
  if_pos (UInt8.lt_iff_toNat_lt.2 h)

theorem leadByte_two (h : 0xC2 ≤ b.toNat) (h' : b.toNat ≤ 0xDF) :
    leadByte b = some ⟨1, 0x80, 0xBF, b.toNat - 0xC0⟩ := by
  have hlt : ¬ b.toNat < 0x80 := by omega
  have hmod : b.toNat % 0x20 = b.toNat - 0xC0 := by omega
  simp [leadByte, UInt8.lt_iff_toNat_lt, UInt8.le_iff_toNat_le, *]

theorem leadByte_three (h : 0xE0 ≤ b.toNat) (h' : b.toNat ≤ 0xEF) :
    ∃ low high, leadByte b = some ⟨2, low, high, b.toNat - 0xE0⟩ ∧
      ∀ d : UInt8, low ≤ d ∧ d ≤ high ↔ 0x80 ≤ d.toNat ∧ d.toNat ≤ 0xBF ∧
        (b.toNat = 0xE0 → 0xA0 ≤ d.toNat) ∧ (b.toNat = 0xED → d.toNat ≤ 0x9F) := by
  simp only [UInt8.le_iff_toNat_le]
  by_cases h0 : b = 0xE0
  · subst h0
    exact ⟨0xA0, 0xBF, rfl, fun d => by simp; omega⟩
  by_cases h1 : b = 0xED
  · subst h1
    exact ⟨0x80, 0x9F, rfl, fun d => by simp; omega⟩
  have hne : b.toNat ≠ 0xE0 := fun hb => h0 (UInt8.toNat_inj.1 hb)
  have hne' : b.toNat ≠ 0xED := fun hb => h1 (UInt8.toNat_inj.1 hb)
  refine ⟨0x80, 0xBF, ?_, fun d => by simp [hne, hne']⟩
  have hlt : ¬ b.toNat < 0x80 := by omega
  have htwo : ¬ b.toNat ≤ 0xDF := by omega
  have hlow : 0xE1 ≤ b.toNat := by omega
  have hmod : b.toNat % 0x10 = b.toNat - 0xE0 := by omega
  simp [leadByte, UInt8.lt_iff_toNat_lt, UInt8.le_iff_toNat_le, h0, h1, hlt, htwo, hlow, h', hmod]

theorem leadByte_four (h : 0xF0 ≤ b.toNat) (h' : b.toNat ≤ 0xF4) :
    ∃ low high, leadByte b = some ⟨3, low, high, b.toNat - 0xF0⟩ ∧
      ∀ d : UInt8, low ≤ d ∧ d ≤ high ↔ 0x80 ≤ d.toNat ∧ d.toNat ≤ 0xBF ∧
        (b.toNat = 0xF0 → 0x90 ≤ d.toNat) ∧ (b.toNat = 0xF4 → d.toNat ≤ 0x8F) := by
  simp only [UInt8.le_iff_toNat_le]
  by_cases h0 : b = 0xF0
  · subst h0
    exact ⟨0x90, 0xBF, rfl, fun d => by simp; omega⟩
  by_cases h1 : b = 0xF4
  · subst h1
    exact ⟨0x80, 0x8F, rfl, fun d => by simp; omega⟩
  have hne : b.toNat ≠ 0xF0 := fun hb => h0 (UInt8.toNat_inj.1 hb)
  have hne' : b.toNat ≠ 0xF4 := fun hb => h1 (UInt8.toNat_inj.1 hb)
  refine ⟨0x80, 0xBF, ?_, fun d => by simp [hne, hne']⟩
  obtain h2 | h2 | h2 : b.toNat = 0xF1 ∨ b.toNat = 0xF2 ∨ b.toNat = 0xF3 := by omega
  · obtain rfl : b = 0xF1 := UInt8.toNat_inj.1 h2
    rfl
  · obtain rfl : b = 0xF2 := UInt8.toNat_inj.1 h2
    rfl
  · obtain rfl : b = 0xF3 := UInt8.toNat_inj.1 h2
    rfl

/-- A byte that starts a character is one of four kinds. -/
theorem leadByte_eq_some (h : leadByte b = some q) : b.toNat < 0x80 ∨
    (0xC2 ≤ b.toNat ∧ b.toNat ≤ 0xDF) ∨ (0xE0 ≤ b.toNat ∧ b.toNat ≤ 0xEF) ∨
    (0xF0 ≤ b.toNat ∧ b.toNat ≤ 0xF4) := by
  by_contra hn
  simp only [leadByte, UInt8.lt_iff_toNat_lt, UInt8.le_iff_toNat_le, beq_iff_eq, Bool.and_eq_true,
    decide_eq_true_eq, ← UInt8.toNat_inj] at h
  simp only [UInt8.reduceToNat] at h
  iterate 8 rw [if_neg (by omega)] at h
  cases h

/-! ## Characters under way -/

/-- The bytes `pre` start a character: further bytes, of which the next one is in a range,
make them the bytes of the character that is read. -/
def Starts : (owed : Nat) → (low high : UInt8) → (bits : Nat) → (pre : List UInt8) → Prop
  | 0, _, _, n, pre => encodeChar (Char.ofNat n) = pre
  | k + 1, low, high, n, pre => ∀ b, low ≤ b → b ≤ high →
    Starts k 0x80 0xBF (n * 64 + b.toNat % 64) (pre ++ [b])

theorem isTail_iff : 0x80 ≤ b ∧ b ≤ 0xBF ↔ 0x80 ≤ b.toNat ∧ b.toNat ≤ 0xBF := by
  rw [UInt8.le_iff_toNat_le, UInt8.le_iff_toNat_le]
  rfl

/-- The first byte of a character and the range of the next one leave only characters. -/
theorem starts_leadByte (h : leadByte b = some q) : Starts q.owed q.low q.high q.bits [b] := by
  obtain hb | ⟨hb, hb'⟩ | ⟨hb, hb'⟩ | ⟨hb, hb'⟩ := leadByte_eq_some h
  · obtain rfl := Option.some.inj (h.symm.trans (leadByte_one hb))
    exact encodeChar_one hb rfl
  · obtain rfl := Option.some.inj (h.symm.trans (leadByte_two hb hb'))
    show Starts 1 0x80 0xBF (b.toNat - 0xC0) [b]
    intro d hd hd'
    obtain ⟨hd, hd'⟩ := isTail_iff.1 ⟨hd, hd'⟩
    exact encodeChar_two (by omega) (by omega) (by omega) (by omega)
  · obtain ⟨low, high, hlead, hrange⟩ := leadByte_three hb hb'
    obtain rfl := Option.some.inj (h.symm.trans hlead)
    show Starts 2 low high (b.toNat - 0xE0) [b]
    intro d hd hd' e he he'
    obtain ⟨hd, hd', hlow, hhigh⟩ := (hrange d).1 ⟨hd, hd'⟩
    obtain ⟨he, he'⟩ := isTail_iff.1 ⟨he, he'⟩
    have hv : (((b.toNat - 0xE0) * 64 + d.toNat % 64) * 64 + e.toNat % 64).isValidChar := by
      -- After the byte 0xED the range of the next one leaves out the surrogates.
      by_cases hbefore : b.toNat ≤ 0xED
      · exact .inl (by omega)
      · exact .inr ⟨by omega, by omega⟩
    exact encodeChar_three (by omega) (by omega) hv (by omega) (by omega) (by omega)
  · obtain ⟨low, high, hlead, hrange⟩ := leadByte_four hb hb'
    obtain rfl := Option.some.inj (h.symm.trans hlead)
    show Starts 3 low high (b.toNat - 0xF0) [b]
    intro d hd hd' e he he' f hf hf'
    obtain ⟨hd, hd', hlow, hhigh⟩ := (hrange d).1 ⟨hd, hd'⟩
    obtain ⟨he, he'⟩ := isTail_iff.1 ⟨he, he'⟩
    obtain ⟨hf, hf'⟩ := isTail_iff.1 ⟨hf, hf'⟩
    have hv : ((((b.toNat - 0xF0) * 64 + d.toNat % 64) * 64 + e.toNat % 64) * 64 +
        f.toNat % 64).isValidChar := .inr ⟨by omega, by omega⟩
    exact encodeChar_four (by omega) hv (by omega) (by omega) (by omega) (by omega)

theorem encode_append (l m : List Char) : encode (l ++ m) = encode l ++ encode m :=
  List.flatMap_append

theorem encode_singleton (c : Char) : encode [c] = encodeChar c := by
  rw [encode, List.flatMap_singleton]

namespace Pending

theorem next_tail (k n : Nat) (hlow : low ≤ b) (hhigh : b ≤ high) :
    (⟨k + 2, low, high, n⟩ : Pending).next b =
      ([], ⟨k + 1, 0x80, 0xBF, n * 64 + b.toNat % 64⟩) := by
  simp [next, hlow, hhigh]

theorem next_last (n : Nat) (hlow : low ≤ b) (hhigh : b ≤ high) :
    (⟨1, low, high, n⟩ : Pending).next b = ([some (Char.ofNat (n * 64 + b.toNat % 64))], .none) := by
  simp [next, hlow, hhigh]

theorem next_lead (hp : p.owed = 0) (h : leadByte b = some q) :
    p.next b = if q.owed = 0 then ([some (Char.ofNat q.bits)], .none) else ([], q) := by
  simp [next, hp, h]

/-- A byte outside the range, or one that starts nothing, is read as no character. -/
theorem none_mem_next (h : ¬ (low ≤ b ∧ b ≤ high) ∧ k ≠ 0 ∨ k = 0 ∧ leadByte b = .none) :
    Option.none ∈ ((⟨k, low, high, n⟩ : Pending).next b).1 := by
  obtain ⟨hrange, hk⟩ | ⟨hk, hlead⟩ := h
  · have hout : ¬ ((decide (k ≠ 0) && decide (low ≤ b) && decide (b ≤ high)) = true) := by
      simpa [hk] using hrange
    unfold next
    rw [if_neg hout]
    cases leadByte b with
    | none => simp
    | some q => by_cases hq : q.owed = 0 <;> simp [hk, hq]
  · simp [next, hk, hlead]

/-- The bytes that a reader of UTF-8 has not yet turned into a character. -/
def Holds (p : Pending) (pre : List UInt8) : Prop :=
  if p.owed = 0 then pre = [] else Starts p.owed p.low p.high p.bits pre

theorem holds_none : Pending.none.Holds [] := rfl

/-- A byte is read as no character, or the bytes held before it and the byte itself are those
of the characters that are read and those held after it. -/
theorem holds_next (hp : p.Holds pre) (b : UInt8) : Option.none ∈ (p.next b).1 ∨
    ∃ cs pre', (p.next b).1 = cs.map some ∧ (p.next b).2.Holds pre' ∧
      pre ++ [b] = encode cs ++ pre' := by
  obtain ⟨owed, low, high, n⟩ := p
  by_cases howed : owed = 0
  · subst howed
    obtain rfl : pre = [] := hp
    cases hlead : leadByte b with
    | none => exact .inl (none_mem_next (.inr ⟨rfl, hlead⟩))
    | some q =>
      have hstarts := starts_leadByte hlead
      right
      rw [next_lead rfl hlead]
      by_cases hq : q.owed = 0
      · rw [hq] at hstarts
        rw [if_pos hq]
        refine ⟨[Char.ofNat q.bits], [], rfl, holds_none, ?_⟩
        rw [List.append_nil, encode_singleton]
        exact hstarts.symm
      · rw [if_neg hq]
        exact ⟨[], [b], rfl, (if_neg hq).mpr hstarts, rfl⟩
  · by_cases hrange : low ≤ b ∧ b ≤ high
    · obtain ⟨k, rfl⟩ := Nat.exists_eq_succ_of_ne_zero howed
      have hstarts : Starts k 0x80 0xBF (n * 64 + b.toNat % 64) (pre ++ [b]) :=
        hp b hrange.1 hrange.2
      right
      cases k with
      | zero =>
        rw [next_last n hrange.1 hrange.2]
        refine ⟨[Char.ofNat (n * 64 + b.toNat % 64)], [], rfl, holds_none, ?_⟩
        rw [List.append_nil, encode_singleton]
        exact hstarts.symm
      | succ k =>
        rw [next_tail k n hrange.1 hrange.2]
        exact ⟨[], pre ++ [b], rfl, hstarts, rfl⟩
    · exact .inl (none_mem_next (.inl ⟨hrange, howed⟩))

end Pending

/-- Bytes that are read as characters throughout are, with the bytes held before them, those
of the characters. -/
theorem eq_encode_of_decodeFrom (hp : p.Holds pre) (h : decodeFrom p bytes = l.map some) :
    pre ++ bytes = encode l := by
  induction bytes generalizing p pre l with
  | nil =>
    by_cases howed : p.owed = 0
    · rw [decodeFrom, if_pos howed] at h
      obtain rfl : pre = [] := (if_pos howed).mp hp
      obtain rfl : l = [] := List.map_eq_nil_iff.1 h.symm
      rfl
    · rw [decodeFrom, if_neg howed] at h
      have hnone : Option.none ∈ l.map some := h ▸ List.mem_singleton_self _
      simp at hnone
  | cons b bytes ih =>
    rw [decodeFrom] at h
    obtain hnone | ⟨cs, pre', hnext, hheld, hpre⟩ := p.holds_next hp b
    · have hnone : Option.none ∈ l.map some := h ▸ List.mem_append_left _ hnone
      simp at hnone
    · rw [hnext] at h
      obtain ⟨cs', l', rfl, hcs, hl⟩ := List.append_eq_map_iff.1 h
      obtain rfl : cs' = cs := List.map_injective_iff.2 (fun _ _ => Option.some.inj) hcs
      rw [List.append_cons, hpre, List.append_assoc, ih hheld hl.symm, encode_append]

/-! ## Reading what has been written -/

theorem decodeFrom_lead (h : leadByte b = some q) (hq : q.owed ≠ 0) :
    decodeFrom .none (b :: bytes) = decodeFrom q bytes := by
  rw [decodeFrom, Pending.next_lead rfl h, if_neg hq]
  rfl

theorem decodeFrom_tail (h : low ≤ b ∧ b ≤ high) :
    decodeFrom ⟨k + 2, low, high, n⟩ (b :: bytes) =
      decodeFrom ⟨k + 1, 0x80, 0xBF, n * 64 + b.toNat % 64⟩ bytes := by
  rw [decodeFrom, Pending.next_tail k n h.1 h.2]
  rfl

theorem decodeFrom_last (h : low ≤ b ∧ b ≤ high) (hc : Char.ofNat (n * 64 + b.toNat % 64) = c) :
    decodeFrom ⟨1, low, high, n⟩ (b :: bytes) = some c :: decodeFrom .none bytes := by
  rw [decodeFrom, Pending.next_last n h.1 h.2, hc]
  rfl

theorem isTail_toUInt8 (n : Nat) :
    0x80 ≤ (0x80 + n % 64).toUInt8 ∧ (0x80 + n % 64).toUInt8 ≤ 0xBF := by
  rw [isTail_iff, toNat_toUInt8 (by omega)]
  omega

theorem decodeFrom_one (h : n < 0x80) :
    decodeFrom .none (n.toUInt8 :: bytes) = some (Char.ofNat n) :: decodeFrom .none bytes := by
  have ha := toNat_toUInt8 (n := n) (by omega)
  have hlead := leadByte_one (b := n.toUInt8) (by omega)
  rw [decodeFrom, Pending.next_lead rfl hlead, if_pos rfl, ha]
  rfl

theorem decodeFrom_two (h : 0x80 ≤ n) (h' : n < 0x800) :
    decodeFrom .none ((0xC0 + n / 64).toUInt8 :: (0x80 + n % 64).toUInt8 :: bytes) =
      some (Char.ofNat n) :: decodeFrom .none bytes := by
  have ha := toNat_toUInt8 (n := 0xC0 + n / 64) (by omega)
  have hb := toNat_toUInt8 (n := 0x80 + n % 64) (by omega)
  have hlead := leadByte_two (b := (0xC0 + n / 64).toUInt8) (by omega) (by omega)
  have hn : (0xC0 + n / 64 - 0xC0) * 64 + (0x80 + n % 64) % 64 = n := by omega
  rw [decodeFrom_lead hlead Nat.one_ne_zero]
  exact decodeFrom_last (isTail_toUInt8 _) (by rw [ha, hb, hn])

theorem decodeFrom_three (h : 0x800 ≤ n) (h' : n < 0x10000) (hv : n.isValidChar) :
    decodeFrom .none ((0xE0 + n / 4096).toUInt8 :: (0x80 + n / 64 % 64).toUInt8 ::
      (0x80 + n % 64).toUInt8 :: bytes) = some (Char.ofNat n) :: decodeFrom .none bytes := by
  have ha := toNat_toUInt8 (n := 0xE0 + n / 4096) (by omega)
  have hb := toNat_toUInt8 (n := 0x80 + n / 64 % 64) (by omega)
  have hd := toNat_toUInt8 (n := 0x80 + n % 64) (by omega)
  obtain ⟨low, high, hlead, hrange⟩ := leadByte_three (b := (0xE0 + n / 4096).toUInt8)
    (by omega) (by omega)
  have hmiddle := (hrange (0x80 + n / 64 % 64).toUInt8).2 (by
    obtain hv | ⟨hv, -⟩ := hv <;> omega)
  have hn : ((0xE0 + n / 4096 - 0xE0) * 64 + (0x80 + n / 64 % 64) % 64) * 64 +
    (0x80 + n % 64) % 64 = n := by omega
  rw [decodeFrom_lead hlead (Nat.succ_ne_zero 1), decodeFrom_tail hmiddle]
  exact decodeFrom_last (isTail_toUInt8 _) (by rw [ha, hb, hd, hn])

theorem decodeFrom_four (h : 0x10000 ≤ n) (h' : n < 0x110000) :
    decodeFrom .none ((0xF0 + n / 262144).toUInt8 :: (0x80 + n / 4096 % 64).toUInt8 ::
      (0x80 + n / 64 % 64).toUInt8 :: (0x80 + n % 64).toUInt8 :: bytes) =
      some (Char.ofNat n) :: decodeFrom .none bytes := by
  have ha := toNat_toUInt8 (n := 0xF0 + n / 262144) (by omega)
  have hb := toNat_toUInt8 (n := 0x80 + n / 4096 % 64) (by omega)
  have hd := toNat_toUInt8 (n := 0x80 + n / 64 % 64) (by omega)
  have he := toNat_toUInt8 (n := 0x80 + n % 64) (by omega)
  obtain ⟨low, high, hlead, hrange⟩ := leadByte_four (b := (0xF0 + n / 262144).toUInt8)
    (by omega) (by omega)
  have hmiddle := (hrange (0x80 + n / 4096 % 64).toUInt8).2 (by omega)
  have hn : (((0xF0 + n / 262144 - 0xF0) * 64 + (0x80 + n / 4096 % 64) % 64) * 64 +
    (0x80 + n / 64 % 64) % 64) * 64 + (0x80 + n % 64) % 64 = n := by omega
  rw [decodeFrom_lead hlead (Nat.succ_ne_zero 2), decodeFrom_tail hmiddle,
    decodeFrom_tail (isTail_toUInt8 _)]
  exact decodeFrom_last (isTail_toUInt8 _) (by rw [ha, hb, hd, he, hn])

theorem toNat_lt (c : Char) : c.toNat < 0x110000 := by
  obtain h | ⟨-, h⟩ : c.toNat.isValidChar := c.valid <;> omega

/-- The bytes of a character are read as this character, whatever follows. -/
theorem decodeFrom_encodeChar (c : Char) (bytes : List UInt8) :
    decodeFrom .none (encodeChar c ++ bytes) = some c :: decodeFrom .none bytes := by
  have hlt := toNat_lt c
  conv => rhs; rw [← c.ofNat_toNat]
  rw [encodeChar]
  split
  · next h => exact decodeFrom_one h
  split
  · next h => exact decodeFrom_two (by omega) h
  split
  · next h => exact decodeFrom_three (by omega) h c.valid
  · next h => exact decodeFrom_four (by omega) hlt

theorem decode_encode (l : List Char) : decode (encode l) = l.map some := by
  induction l with
  | nil => rfl
  | cons c l ih =>
    show decodeFrom .none (encodeChar c ++ encode l) = _
    rw [decodeFrom_encodeChar, List.map_cons]
    exact congrArg _ ih

/-- Reading all of a list is undone by writing all of it, if this is so of each element. -/
theorem mapM_eq_some_iff {α β : Type} {f : α → Option β} {g : β → α}
    (h : ∀ x y, f x = some y ↔ x = g y) {xs : List α} {ys : List β} :
    xs.mapM f = some ys ↔ xs = ys.map g := by
  induction xs generalizing ys with
  | nil => cases ys <;> simp
  | cons x xs ih =>
    rw [List.mapM_cons]
    constructor
    · intro hys
      obtain ⟨y, hy, hys⟩ := Option.bind_eq_some_iff.1 hys
      obtain ⟨zs, hzs, hys⟩ := Option.bind_eq_some_iff.1 hys
      obtain rfl := Option.some.inj hys
      rw [List.map_cons, (h x y).1 hy, ih.1 hzs]
    · intro hxs
      obtain ⟨y, ys, rfl, rfl, hys⟩ := List.map_eq_cons_iff.1 hxs.symm
      rw [(h _ y).2 rfl, ih.2 hys.symm]
      rfl

/-- Bytes are read as a text just if they are its bytes. -/
theorem decode?_eq_some_iff {s : String} : decode? bytes = some s ↔ bytes = encode s.toList := by
  have hchars : ∀ l, (decode bytes).mapM id = some l ↔ decode bytes = l.map some := fun l =>
    mapM_eq_some_iff fun _ _ => Iff.rfl
  rw [decode?, Option.map_eq_some_iff]
  constructor
  · rintro ⟨l, hl, rfl⟩
    rw [String.toList_ofList]
    exact eq_encode_of_decodeFrom Pending.holds_none ((hchars l).1 hl)
  · rintro rfl
    exact ⟨s.toList, (hchars _).2 (decode_encode _), String.ofList_toList⟩

theorem encode_inj (h : encode l = encode m) : l = m := by
  have hmap : l.map some = m.map some := by rw [← decode_encode, h, decode_encode]
  exact List.map_injective_iff.2 (fun _ _ => Option.some.inj) hmap

/-! ## Order -/

theorem encodeChar_ne_nil (c : Char) : encodeChar c ≠ [] := by
  rw [encodeChar]
  split_ifs <;> exact List.cons_ne_nil _ _

theorem toUInt8_cons_lt {xs ys : List UInt8} (hk : k < 0x100) (h : n < k ∨ n = k ∧ xs < ys) :
    n.toUInt8 :: xs < k.toUInt8 :: ys := by
  obtain h | ⟨rfl, h⟩ := h
  · have hlt : n.toUInt8 < k.toUInt8 := by
      rw [UInt8.lt_iff_toNat_lt, toNat_toUInt8 (by omega), toNat_toUInt8 hk]
      exact h
    exact List.cons_lt_cons_iff.2 (.inl hlt)
  · exact List.cons_lt_cons_iff.2 (.inr ⟨rfl, h⟩)

/-- The bytes of two characters have the order of the characters, whatever follows. -/
theorem encodeChar_append_lt (h : c < c') (xs ys : List UInt8) :
    encodeChar c ++ xs < encodeChar c' ++ ys := by
  have hlt : c.toNat < c'.toNat := h
  have hmax := toNat_lt c'
  rw [encodeChar, encodeChar]
  generalize c.toNat = n at hlt
  generalize c'.toNat = k at hlt hmax
  -- The first bytes differ unless as many bytes are needed for both numbers.
  split_ifs <;> first | (exfalso; omega) | (exact toUInt8_cons_lt (by omega) (.inl (by omega))) | skip
  · have hnum : 0xC0 + n / 64 < 0xC0 + k / 64 ∨ 0xC0 + n / 64 = 0xC0 + k / 64 ∧
        0x80 + n % 64 < 0x80 + k % 64 := by omega
    exact toUInt8_cons_lt (by omega) (hnum.imp_right fun h =>
      ⟨h.1, toUInt8_cons_lt (by omega) (.inl h.2)⟩)
  · have hnum : 0xE0 + n / 4096 < 0xE0 + k / 4096 ∨ 0xE0 + n / 4096 = 0xE0 + k / 4096 ∧
        (0x80 + n / 64 % 64 < 0x80 + k / 64 % 64 ∨ 0x80 + n / 64 % 64 = 0x80 + k / 64 % 64 ∧
          0x80 + n % 64 < 0x80 + k % 64) := by omega
    exact toUInt8_cons_lt (by omega) (hnum.imp_right fun h =>
      ⟨h.1, toUInt8_cons_lt (by omega) (h.2.imp_right fun h =>
        ⟨h.1, toUInt8_cons_lt (by omega) (.inl h.2)⟩)⟩)
  · have hnum : 0xF0 + n / 262144 < 0xF0 + k / 262144 ∨ 0xF0 + n / 262144 = 0xF0 + k / 262144 ∧
        (0x80 + n / 4096 % 64 < 0x80 + k / 4096 % 64 ∨
          0x80 + n / 4096 % 64 = 0x80 + k / 4096 % 64 ∧
            (0x80 + n / 64 % 64 < 0x80 + k / 64 % 64 ∨ 0x80 + n / 64 % 64 = 0x80 + k / 64 % 64 ∧
              0x80 + n % 64 < 0x80 + k % 64)) := by omega
    exact toUInt8_cons_lt (by omega) (hnum.imp_right fun h =>
      ⟨h.1, toUInt8_cons_lt (by omega) (h.2.imp_right fun h =>
        ⟨h.1, toUInt8_cons_lt (by omega) (h.2.imp_right fun h =>
          ⟨h.1, toUInt8_cons_lt (by omega) (.inl h.2)⟩)⟩)⟩)

/-- The bytes of texts are in the order of the texts. -/
theorem encode_lt_encode (h : l < m) : encode l < encode m := by
  induction l generalizing m with
  | nil =>
    cases m with
    | nil => exact absurd h (List.not_lt_nil _)
    | cons c m =>
      obtain ⟨b, bytes, hb⟩ := List.exists_cons_of_ne_nil (encodeChar_ne_nil c)
      show [] < encodeChar c ++ encode m
      rw [hb]
      exact List.nil_lt_cons _ _
  | cons c l ih =>
    cases m with
    | nil => exact absurd h (List.not_lt_nil _)
    | cons c' m =>
      obtain hc | ⟨rfl, hl⟩ := List.cons_lt_cons_iff.1 h
      · exact encodeChar_append_lt hc _ _
      · exact List.append_left_lt (ih hl)

/-! ## ASCII -/

/-- A byte below 0x80 is all of the character that it stands in. -/
theorem eq_singleton_of_mem_encodeChar (hb : b ∈ encodeChar c) (h : b.toNat < 0x80) :
    encodeChar c = [b] := by
  have hc := toNat_lt c
  have hlarge : ∀ k, 0x80 ≤ k → k < 0x100 → b ≠ k.toUInt8 := fun k hk hk' hbk => by
    rw [hbk, toNat_toUInt8 hk'] at h
    omega
  rw [encodeChar] at hb ⊢
  split_ifs at hb ⊢
  · rw [List.mem_singleton.1 hb]
  all_goals
    simp only [List.mem_cons, List.not_mem_nil, or_false] at hb
    exfalso
  · obtain hb | hb := hb <;> exact hlarge _ (by omega) (by omega) hb
  · obtain hb | hb | hb := hb <;> exact hlarge _ (by omega) (by omega) hb
  · obtain hb | hb | hb | hb := hb <;> exact hlarge _ (by omega) (by omega) hb

/-- A text is cut at a character of one byte where its bytes are cut at this byte. -/
theorem encode_eq_append_cons {xs ys : List UInt8} (hc : encodeChar c = [b])
    (h : b.toNat < 0x80) (hl : encode l = xs ++ b :: ys) :
    ∃ l₁ l₂, l = l₁ ++ c :: l₂ ∧ encode l₁ = xs ∧ encode l₂ = ys := by
  induction l generalizing xs with
  | nil => simp [encode] at hl
  | cons d l ih =>
    have hlater : ∀ as, encode l = as ++ b :: ys → ∃ l₁ l₂, d :: l = l₁ ++ c :: l₂ ∧
        encode l₁ = encodeChar d ++ as ∧ encode l₂ = ys := fun as has => by
      obtain ⟨l₁, l₂, rfl, rfl, hys⟩ := ih has
      exact ⟨d :: l₁, l₂, rfl, rfl, hys⟩
    -- The cut lies behind the first character, or in it if that is the byte itself.
    obtain ⟨as, rfl, has⟩ | ⟨bs, hd, hbs⟩ := List.append_eq_append_iff.1 hl
    · exact hlater as has
    · cases bs with
      | nil =>
        rw [List.append_nil] at hd
        rw [← hd, ← List.append_nil (encodeChar d)]
        exact hlater [] hbs.symm
      | cons b' bs =>
        obtain ⟨rfl, rfl⟩ := List.cons.inj hbs
        have hmem : b ∈ encodeChar d := by simp [hd]
        have hone := eq_singleton_of_mem_encodeChar hmem h
        have hdc : encode [d] = encode [c] := by rw [encode_singleton, encode_singleton, hc, hone]
        obtain rfl : d = c := (List.cons.inj (encode_inj hdc)).1
        obtain ⟨rfl, rfl⟩ : xs = [] ∧ bs = [] := by
          simpa [hone, List.singleton_eq_append_iff] using hd
        exact ⟨[], l, rfl, rfl, rfl⟩

/-- A character of one byte stands in a text just if its byte stands among those of the text. -/
theorem mem_encode_iff (hc : encodeChar c = [b]) (h : b.toNat < 0x80) : b ∈ encode l ↔ c ∈ l := by
  constructor
  · intro hb
    obtain ⟨xs, ys, hl⟩ := List.append_of_mem hb
    obtain ⟨l₁, l₂, rfl, -⟩ := encode_eq_append_cons hc h hl
    exact List.mem_append_cons_self
  · intro hl
    exact List.mem_flatMap.2 ⟨c, hl, by rw [hc]; exact List.mem_singleton_self b⟩

end Layering.Text
