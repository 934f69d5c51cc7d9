import Layering.Data.Node
import Layering.Decimal.Shortest

/-!
# Numbers in JSON

A number without a fraction or an exponent is an integer as long as a 64-bit word
holds it. Every other number is a double: its leading digits, as far as a 64-bit
word holds them, times a power of ten.
-/

namespace Layering.Data.Json

/-- The layout of numbers with a fraction or an exponent. -/
def floatLayout : Decimal.Layout := ⟨-5, 15⟩

/-- `10 ^ n` as a double, for `n` up to 308. -/
def pow10 (n : Nat) : Float := Float.ofScientific 1 false n

/-- `x · 10^e` in steps that stay within the range of doubles, or none if that is
too large. -/
def scale (x : Float) (e : Int) : Nat → Option Float
  | 0 => some x
  | fuel + 1 =>
    if e ≥ 0 then
      if e ≤ 308 then
        let y := x * pow10 e.toNat
        if y.isInf then none else some y
      else if x == 0 then some x else none
    else if e ≥ -308 then some (x / pow10 (-e).toNat)
    else if x == 0 then some x
    else scale (x / pow10 308) (e + 308) fuel

/-- The double of some digits and an exponent. -/
def floatNode (negative : Bool) (significand : Nat) (e : Int) : Node :=
  match scale significand.toUInt64.toFloat (if e < -100000 then -100000 else e) 400 with
  | some x => .float (floatLayout.ofFloat (if negative then -x else x))
  | none => .unvalued

/-- Takes digits into a 64-bit word as long as they fit. The answer is the word,
the number of digits taken, and the number of digits left out. -/
def takeDigits (n : Nat) : List Char → Nat × Nat × Nat
  | [] => (n, 0, 0)
  | c :: l =>
    let m := n * 10 + (c.toNat - '0'.toNat)
    if m < Nat.pow 2 64 then
      let (k, taken, left) := takeDigits m l
      (k, taken + 1, left)
    else (n, 0, l.length + 1)

/-- The number that decimal digits write. -/
def decimalOf (l : List Char) : Nat := l.foldl (fun n c => n * 10 + (c.toNat - '0'.toNat)) 0

/-- An exponent and the text after it, or none if it is not well formed. -/
def readExponent (l : List Char) : Option (Int × List Char) :=
  let (negative, l) := match l with
    | '+' :: r => (false, r)
    | '-' :: r => (true, r)
    | l => (false, l)
  let digits := l.takeWhile Char.isDigit
  if digits.isEmpty then none
  else
    let n : Int := decimalOf digits
    some (if negative then -n else n, l.drop digits.length)

/-- The number at the start of a text, without its sign, and the text after it. -/
def readUnsigned (negative : Bool) (l : List Char) : Node × Option (List Char) :=
  let digits := l.takeWhile Char.isDigit
  let rest := l.drop digits.length
  match digits with
  | [] => (.broken, none)
  | '0' :: _ :: _ => (.broken, none)
  | _ =>
    let (whole, _, dropped) := takeDigits 0 digits
    let fraction := match rest with
      | '.' :: r => some (r.takeWhile Char.isDigit)
      | _ => none
    let rest := match rest, fraction with
      | '.' :: r, some f => r.drop f.length
      | r, _ => r
    if fraction = some [] then (.broken, none)
    else
      let (significand, e) := match fraction with
        | none => (whole, (dropped : Int))
        | some f =>
          let (n, taken, _) := takeDigits whole f
          (n, (dropped : Int) - taken)
      match rest with
      | 'e' :: r | 'E' :: r =>
        match readExponent r with
        | some (x, rest) => (floatNode negative significand (e + x), some rest)
        | none => (.broken, none)
      | _ =>
        if fraction.isNone && dropped = 0 then
          if negative then
            if whole = 0 ∨ whole > Nat.pow 2 63 then (floatNode true whole 0, some rest)
            else (.int (-whole), some rest)
          else (.int whole, some rest)
        else (floatNode negative significand e, some rest)

/-- The number at the start of a text, and the text after it. -/
def readNumber : List Char → Node × Option (List Char)
  | '-' :: l => readUnsigned true l
  | l => readUnsigned false l

end Layering.Data.Json
