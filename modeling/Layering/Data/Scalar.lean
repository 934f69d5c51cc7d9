import Layering.Data.Node

/-!
# Scalars without quotes

The values that a scalar without quotes stands for in a notation that leaves the
type to the text: nothing, a truth value, an integer in one of four bases, a
number with a fraction or exponent, or else the text itself.
-/

namespace Layering.Data.Scalar

/-- Whether a scalar stands for nothing. -/
def isNull (s : String) : Bool :=
  s == "" || s == "~" || s == "null" || s == "Null" || s == "NULL"

/-- The truth value of a scalar. -/
def bool? : String → Option Bool
  | "true" | "True" | "TRUE" => some true
  | "false" | "False" | "FALSE" => some false
  | _ => none

/-- The value of a digit. -/
def digit? (c : Char) : Option Nat :=
  if '0' ≤ c ∧ c ≤ '9' then some (c.toNat - '0'.toNat)
  else if 'a' ≤ c ∧ c ≤ 'z' then some (c.toNat - 'a'.toNat + 10)
  else if 'A' ≤ c ∧ c ≤ 'Z' then some (c.toNat - 'A'.toNat + 10)
  else none

/-- The number that digits of a base write after the number `n`. -/
def digitsAfter (base : Nat) : (n : Nat) → List Char → Option Nat
  | n, [] => some n
  | n, c :: l =>
    match digit? c with
    | some d => if d < base then digitsAfter base (n * base + d) l else none
    | none => none

/-- The number that digits of a base write; there is at least one. -/
def digits? (base : Nat) (l : List Char) : Option Nat :=
  if l.isEmpty then none else digitsAfter base 0 l

/-- Decimal digits that start with a zero they do not need. -/
def hasNeedlessZero : List Char → Bool
  | '0' :: c :: r => (c :: r).all Char.isDigit
  | _ => false

/-- A natural number: decimal, or with the mark of another base. -/
def unsigned? : List Char → Option Nat
  | '0' :: 'x' :: r => digits? 16 r
  | '0' :: 'o' :: r => digits? 8 r
  | '0' :: 'b' :: r => digits? 2 r
  | l => if hasNeedlessZero l then none else digits? 10 l

/-- A natural number after an optional plus. -/
def nat? (s : String) : Option Nat :=
  match s.toList with
  | '+' :: r => unsigned? r
  | l => unsigned? l

/-- An integer. -/
def int? (s : String) : Option Int :=
  match s.toList with
  | '-' :: r => (unsigned? r).map fun n => -n
  | _ => (nat? s).map fun n => n

/-- Whether text is digits around an optional point, at least one digit, with an
optional exponent. -/
def isDecimal (l : List Char) : Bool :=
  let digits := l.takeWhile Char.isDigit
  let rest := l.drop digits.length
  let fraction := match rest with
    | '.' :: r => r.takeWhile Char.isDigit
    | _ => []
  let rest := match rest with
    | '.' :: r => r.drop fraction.length
    | r => r
  let exponent := match rest with
    | [] => true
    | e :: '+' :: r => (e == 'e' || e == 'E') && !r.isEmpty && r.all Char.isDigit
    | e :: '-' :: r => (e == 'e' || e == 'E') && !r.isEmpty && r.all Char.isDigit
    | e :: r => (e == 'e' || e == 'E') && !r.isEmpty && r.all Char.isDigit
  !(digits.isEmpty && fraction.isEmpty) && exponent

/-- Whether a scalar is a number with a fraction or an exponent, or one of the
names of the infinities and of the undefined number. -/
def isFloat (s : String) : Bool :=
  let named := ["inf", "Inf", "INF"].map ("." ++ ·)
  match s.toList with
  | '+' :: r => !hasNeedlessZero r && (isDecimal r || named.contains (String.ofList r))
  | '-' :: r => !hasNeedlessZero r && (isDecimal r || named.contains (String.ofList r))
  | l =>
    !hasNeedlessZero l && (isDecimal l || named.contains s || [".nan", ".NaN", ".NAN"].contains s)

/-- What a scalar stands for. Integers that no 64-bit word holds stand for no
value, those beyond 128 bits are numbers of the other kind. -/
def value (s : String) : Node :=
  if isNull s then .null
  else
    match bool? s, int? s with
    | some b, _ => .bool b
    | none, some n =>
      if -Nat.pow 2 63 ≤ n ∧ n < Nat.pow 2 64 then .int n
      else if -Nat.pow 2 127 ≤ n ∧ n < Nat.pow 2 128 then .unvalued
      else .float s
    | none, none => if isFloat s then .float s else .text s

end Layering.Data.Scalar
