import Layering.Data.Node
import Layering.Data.Scalar

/-!
# Numbers and dates in TOML

Integers are 64-bit words, with underscores between digits and, in front, a sign or
the mark of another base. Other numbers must not be too large for a double. Dates
and times are only checked: no value here is one.
-/

namespace Layering.Data.Toml

/-- Digits read, and the rest of the text. -/
abbrev Digits := Option (List Char × List Char)

/-- Reads digits of a base with single underscores between them. `wanted` says that
a digit must come next. -/
def readDigits (base : Nat) : (wanted : Bool) → (done : List Char) → List Char → Digits
  | wanted, done, [] => if wanted then none else some (done.reverse, [])
  | wanted, done, c :: l =>
    if (Scalar.digits? base [c]).isSome then readDigits base false (c :: done) l
    else if wanted then none
    else if c = '_' then readDigits base true done l
    else some (done.reverse, c :: l)

/-- Reads the digits of a decimal integer: a zero stands alone. -/
def readWhole : List Char → Digits
  | '0' :: l => some (['0'], l)
  | l => readDigits 10 true [] l

/-- An integer that a 64-bit word holds. -/
def wordNode? (n : Int) : Option Node :=
  if -Nat.pow 2 63 ≤ n ∧ n < Nat.pow 2 63 then some (.int n) else none

/-- Whether `m · 10^e` is too large for a double. -/
def overflows (m : Nat) (e : Int) : Bool :=
  let size : Int := (Nat.toDigits 10 m).length + e
  if m = 0 || size < 305 then false
  else if size > 310 then true
  else
    let limit := Nat.pow 2 1024 - Nat.pow 2 970
    if e ≥ 0 then m * Nat.pow 10 e.toNat ≥ limit else m ≥ limit * Nat.pow 10 (-e).toNat

/-- Reads the digits after the point, if there is one. -/
def readFraction : List Char → Digits
  | '.' :: l => readDigits 10 true [] l
  | l => some ([], l)

/-- Reads an exponent, if there is one. -/
def readExponent (l : List Char) : Option (Int × List Char) :=
  match l with
  | c :: l' =>
    if c = 'e' ∨ c = 'E' then
      let (negative, l') := match l' with
        | '+' :: r => (false, r)
        | '-' :: r => (true, r)
        | r => (false, r)
      (readDigits 10 true [] l').map fun (ds, r) =>
        let n : Int := (Scalar.digits? 10 ds).getD 0
        (if negative then -n else n, r)
    else some (0, l)
  | [] => some (0, [])

/-- A sign and the text after it. -/
def readSign : List Char → Option Bool × List Char
  | '+' :: l => (some false, l)
  | '-' :: l => (some true, l)
  | l => (none, l)

/-- Reads a decimal number after its sign. -/
def readDecimal (negative : Bool) (l : List Char) : Option (Node × List Char) := do
  let (whole, l₁) ← readWhole l
  let (fraction, l₂) ← readFraction l₁
  let (exponent, l₃) ← readExponent l₂
  if l₃.length = l₁.length then
    let n : Int := (Scalar.digits? 10 whole).getD 0
    return (← wordNode? (if negative then -n else n), l₁)
  let m := (Scalar.digits? 10 (whole ++ fraction)).getD 0
  if overflows m (exponent - fraction.length) && !negative then none
  return (.float (String.ofList (l.take (l.length - l₃.length))), l₃)

/-- Reads a number. -/
def readNumber (l : List Char) : Option (Node × List Char) :=
  let marked := fun (base : Nat) (l : List Char) => do
    let (ds, l) ← readDigits base true [] l
    return (← wordNode? ((Scalar.digits? base ds).getD 0), l)
  match l with
  | '0' :: 'x' :: r => marked 16 r
  | '0' :: 'o' :: r => marked 8 r
  | '0' :: 'b' :: r => marked 2 r
  | l =>
    match readSign l with
    | (_, 'i' :: 'n' :: 'f' :: r) => some (.float "inf", r)
    | (_, 'n' :: 'a' :: 'n' :: r) => some (.float "nan", r)
    | (sign, r) => readDecimal (sign == some true) r

/-! ## Dates and times -/

/-- Reads a number of a fixed count of digits between two bounds. -/
def readField (count least most : Nat) (l : List Char) : Option (Nat × List Char) :=
  let ds := l.take count
  if ds.length = count ∧ ds.all Char.isDigit then
    match Scalar.digits? 10 ds with
    | some n => if least ≤ n ∧ n ≤ most then some (n, l.drop count) else none
    | none => none
  else none

/-- The text after a character. -/
def after? (c : Char) : List Char → Option (List Char)
  | d :: l => if c = d then some l else none
  | [] => none

/-- The number of days in a month. -/
def daysIn (year month : Nat) : Nat :=
  if month = 2 then
    (if year % 4 = 0 ∧ (year % 100 ≠ 0 ∨ year % 400 = 0) then 29 else 28)
  else if [4, 6, 9, 11].contains month then 30
  else 31

/-- The text after a date. -/
def afterDate? (l : List Char) : Option (List Char) := do
  let (year, l) ← readField 4 0 9999 l
  let (month, l) ← readField 2 1 12 (← after? '-' l)
  let (_, l) ← readField 2 1 (daysIn year month) (← after? '-' l)
  return l

/-- The text after a time of day. -/
def afterTime? (l : List Char) : Option (List Char) := do
  let (_, l) ← readField 2 0 23 l
  let (_, l) ← readField 2 0 59 (← after? ':' l)
  let (_, l) ← readField 2 0 60 (← after? ':' l)
  match l with
  | '.' :: r =>
    let ds := r.takeWhile Char.isDigit
    return if ds.isEmpty then l else r.drop ds.length
  | l => return l

/-- The text after an offset from universal time, or the text itself. -/
def afterOffset? : List Char → Option (List Char)
  | 'Z' :: l | 'z' :: l => some l
  | '+' :: l | '-' :: l => do
    let (_, l) ← readField 2 0 23 l
    let (_, l) ← readField 2 0 59 (← after? ':' l)
    return l
  | l => some l

/-- Whether a text starts with an hour and a colon. -/
def startsTime (l : List Char) : Bool :=
  match readField 2 0 23 l with
  | some (_, ':' :: _) => true
  | _ => false

/-- The text after a date, or a date and a time. -/
def afterMoment? (l : List Char) : Option (List Char) := do
  let l ← afterDate? l
  match l with
  | c :: r =>
    if (c = 'T' ∨ c = 't' ∨ c = ' ') ∧ startsTime r then afterOffset? (← afterTime? r) else return l
  | [] => return []

/-- A date or time in a document: a record of no known field. -/
def momentNode (s : String) : Node := .map [(.text "moment", .text s)] true

/-- Whether a text starts with a year and a dash. -/
def startsDate (l : List Char) : Bool :=
  match readField 4 0 9999 l with
  | some (_, '-' :: _) => true
  | _ => false

/-- Reads what starts with a digit or a sign: a date, a time or a number. -/
def readQuantity (l : List Char) : Option (Node × List Char) :=
  let moment := fun (r : Option (List Char)) =>
    r.map fun r => (momentNode (String.ofList (l.take (l.length - r.length))), r)
  if startsDate l then moment (afterMoment? l)
  else if startsTime l then moment (afterTime? l)
  else readNumber l

end Layering.Data.Toml
