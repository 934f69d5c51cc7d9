/-!
# UTF-8

Bytes as text. `decode?` reads bytes that are UTF-8 throughout; `decodeLossy`
puts U+FFFD for each longest piece that starts no character.
-/

namespace Layering.Text

/-- A character under way: how many bytes it still needs, the range of the next
one, and its bits so far. Between characters nothing is needed. -/
structure Pending where
  owed : Nat
  low : UInt8
  high : UInt8
  bits : Nat

/-- Between characters. -/
def Pending.none : Pending := ⟨0, 0, 0, 0⟩

/-- What a byte that should start a character starts, if any character does so. -/
def leadByte (b : UInt8) : Option Pending :=
  if b < 0x80 then some ⟨0, 0, 0, b.toNat⟩
  else if 0xC2 ≤ b && b ≤ 0xDF then some ⟨1, 0x80, 0xBF, b.toNat % 0x20⟩
  else if b == 0xE0 then some ⟨2, 0xA0, 0xBF, 0⟩
  else if b == 0xED then some ⟨2, 0x80, 0x9F, 0xD⟩
  else if 0xE1 ≤ b && b ≤ 0xEF then some ⟨2, 0x80, 0xBF, b.toNat % 0x10⟩
  else if b == 0xF0 then some ⟨3, 0x90, 0xBF, 0⟩
  else if 0xF1 ≤ b && b ≤ 0xF3 then some ⟨3, 0x80, 0xBF, b.toNat % 8⟩
  else if b == 0xF4 then some ⟨3, 0x80, 0x8F, 4⟩
  else .none

/-- What a byte gives after the bytes so far: characters (`none` for a piece
that is none) and what is under way then. -/
def Pending.next (p : Pending) (b : UInt8) : List (Option Char) × Pending :=
  if p.owed ≠ 0 && p.low ≤ b && b ≤ p.high then
    let n := p.bits * 64 + b.toNat % 64
    if p.owed = 1 then ([some (Char.ofNat n)], .none) else ([], ⟨p.owed - 1, 0x80, 0xBF, n⟩)
  else
    let cut := if p.owed = 0 then [] else [Option.none]
    match leadByte b with
    | Option.none => (cut ++ [Option.none], .none)
    | some q => if q.owed = 0 then (cut ++ [some (Char.ofNat q.bits)], .none) else (cut, q)

/-- The characters of bytes that follow a character under way, with `none` for
each piece that is none. -/
def decodeFrom (p : Pending) : List UInt8 → List (Option Char)
  | [] => if p.owed = 0 then [] else [Option.none]
  | b :: l => (p.next b).1 ++ decodeFrom (p.next b).2 l

/-- The characters of bytes, with `none` for each piece that is none. -/
def decode (bytes : List UInt8) : List (Option Char) := decodeFrom .none bytes

/-- The text that bytes stand for, if they are UTF-8. -/
def decode? (bytes : List UInt8) : Option String :=
  ((decode bytes).mapM id).map String.ofList

/-- The text of bytes, with U+FFFD for what is not UTF-8. -/
def decodeLossy (bytes : List UInt8) : String :=
  String.ofList ((decode bytes).map (·.getD '\uFFFD'))

/-- The bytes of a character. -/
def encodeChar (c : Char) : List UInt8 :=
  let n := c.toNat
  if n < 0x80 then [n.toUInt8]
  else if n < 0x800 then [(0xC0 + n / 64).toUInt8, (0x80 + n % 64).toUInt8]
  else if n < 0x10000 then
    [(0xE0 + n / 4096).toUInt8, (0x80 + n / 64 % 64).toUInt8, (0x80 + n % 64).toUInt8]
  else
    [(0xF0 + n / 262144).toUInt8, (0x80 + n / 4096 % 64).toUInt8, (0x80 + n / 64 % 64).toUInt8,
      (0x80 + n % 64).toUInt8]

/-- The bytes of a text. -/
def encode (l : List Char) : List UInt8 := l.flatMap encodeChar

end Layering.Text
