/-!
# Shortest decimals

The fewest decimal digits that read back as a given binary fraction, and of those
the digits nearest to it.

A finite double is `m · 2^q`. The reals that round to it form an interval around
it whose ends belong to it when `m` is even. Grids of 1, 2, … 17 digits are tried
in turn; on each grid only the two neighbours of the value can lie in the
interval without a closer point doing so.
-/

namespace Layering.Decimal

/-- A positive rational. -/
structure Ratio where
  num : Nat
  den : Nat

namespace Ratio

/-- `a ≤ b`. -/
def le (a b : Ratio) : Bool := a.num * b.den ≤ b.num * a.den

/-- `a < b`. -/
def lt (a b : Ratio) : Bool := a.num * b.den < b.num * a.den

/-- `n · b^e`. -/
def scaled (n b : Nat) (e : Int) : Ratio :=
  if e ≥ 0 then ⟨n * Nat.pow b e.toNat, 1⟩ else ⟨n, Nat.pow b (-e).toNat⟩

/-- The distance of two rationals. -/
def dist (a b : Ratio) : Ratio :=
  ⟨(a.num * b.den - b.num * a.den) + (b.num * a.den - a.num * b.den), a.den * b.den⟩

/-- `⌊a / 10^e⌋`. -/
def floorAt (a : Ratio) (e : Int) : Nat :=
  if e ≥ 0 then a.num / (a.den * Nat.pow 10 e.toNat) else a.num * Nat.pow 10 (-e).toNat / a.den

/-- The largest `e` in a range below `e₀` with `10^e ≤ a`. -/
def log10 (a : Ratio) (e : Int) : Nat → Int
  | 0 => e
  | fuel + 1 => if (scaled 1 10 e).le a then e else log10 a (e - 1) fuel

end Ratio

/-- A double `m · 2^q` with its rounding interval. -/
structure Rounding where
  value : Ratio
  low : Ratio
  high : Ratio
  closed : Bool

/-- The rounding interval of the double with significand bits `frac` and
biased exponent `ex`. -/
def Rounding.ofBits (frac ex : Nat) : Rounding :=
  let m := if ex = 0 then frac else Nat.pow 2 52 + frac
  let q : Int := (max ex 1 : Nat) - 1075
  let below := if frac = 0 ∧ ex > 1 then 1 else 2
  ⟨.scaled (4 * m) 2 (q - 2), .scaled (4 * m - below) 2 (q - 2), .scaled (4 * m + 2) 2 (q - 2),
    m % 2 = 0⟩

/-- Whether `d · 10^e` rounds to the double. -/
def Rounding.holds (r : Rounding) (d : Nat) (e : Int) : Bool :=
  let x := Ratio.scaled d 10 e
  if r.closed then r.low.le x && x.le r.high else r.low.lt x && x.lt r.high

/-- The point of the grid of step `10^e` that rounds to the double, the nearer of
two, the even one of two as near. -/
def Rounding.onGrid? (r : Rounding) (e : Int) : Option Nat :=
  let d := r.value.floorAt e
  match r.holds d e, r.holds (d + 1) e with
  | true, true =>
    let down := (Ratio.scaled d 10 e).dist r.value
    let up := (Ratio.scaled (d + 1) 10 e).dist r.value
    some (if down.lt up || (!up.lt down && d % 2 = 0) then d else d + 1)
  | true, false => some d
  | false, true => some (d + 1)
  | false, false => none

/-- Digits and exponent: the double is nearest to `digits · 10^exponent`. -/
def Rounding.shortest (r : Rounding) : Nat × Int :=
  let top := r.value.log10 310 700
  match (List.range 17).findSome? fun (n : Nat) =>
      (r.onGrid? (top - n)).map fun d => (d, top - (n : Int)) with
  | some p => p
  | none => (r.value.floorAt (top - 16), top - 16)

/-- How decimals are written: positionally for exponents from `least` to `most`
of the leading digit, with `.0` after a whole number, and otherwise as
`d.ddde+XX` with at least two digits in the exponent. -/
structure Layout where
  least : Int
  most : Int

/-- Digits without the zeros at their end, and the exponent that goes with
them. -/
def stripZeros : Nat → Nat → Int → Nat × Int
  | 0, d, e => (d, e)
  | fuel + 1, d, e => if d ≠ 0 ∧ d % 10 = 0 then stripZeros fuel (d / 10) (e + 1) else (d, e)

/-- The text of `d · 10^e`. -/
def Layout.write (l : Layout) (d : Nat) (e : Int) : String :=
  let (d, e) := stripZeros 20 d e
  let ds := Nat.toDigits 10 d
  let lead : Int := e + ds.length - 1
  if l.least ≤ lead ∧ lead ≤ l.most then
    if e ≥ 0 then String.ofList (ds ++ List.replicate e.toNat '0') ++ ".0"
    else if lead ≥ 0 then
      String.ofList (ds.take (lead.toNat + 1) ++ '.' :: ds.drop (lead.toNat + 1))
    else "0." ++ String.ofList (List.replicate (-lead - 1).toNat '0' ++ ds)
  else
    let mant := match ds with
      | [x] => String.ofList [x]
      | x :: xs => String.ofList (x :: '.' :: xs)
      | [] => "0"
    let k := toString lead.natAbs
    mant ++ (if lead < 0 then "e-" else "e+") ++ (if k.length < 2 then "0" ++ k else k)

/-- The shortest text that reads back as a finite double. -/
def Layout.ofFloat (l : Layout) (x : Float) : String :=
  let bits := x.toBits.toNat
  let sign := if bits / Nat.pow 2 63 = 1 then "-" else ""
  let ex := bits / Nat.pow 2 52 % 2048
  let frac := bits % Nat.pow 2 52
  if ex = 0 ∧ frac = 0 then sign ++ "0.0"
  else
    let (d, e) := (Rounding.ofBits frac ex).shortest
    sign ++ l.write d e

end Layering.Decimal
