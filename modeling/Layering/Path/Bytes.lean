import Layering.Text.Utf8

/-!
# Paths as bytes

The parts of a path can be cut out of its bytes, at offsets that are counted from the last dot of
the last component and from the end of the path. Nothing here looks at characters.
-/

namespace Layering.Path.Bytes

/-- Whether a byte is that of a slash or a backslash. -/
def isSeparator (b : UInt8) : Bool := b == 0x2F || b == 0x5C

/-- What follows the last separator. -/
def basename (p : List UInt8) : List UInt8 := (p.reverse.takeWhile (!isSeparator ·)).reverse

/-- The offset of the last dot. -/
def dot? : List UInt8 → Option Nat
  | [] => none
  | b :: l =>
    match dot? l with
    | some i => some (i + 1)
    | none => if b = 0x2E then some 0 else none

/-- What follows the last dot of the last component, unless that is its first byte. -/
def extension? (p : List UInt8) : Option (List UInt8) :=
  match dot? (basename p) with
  | none | some 0 => none
  | some i => some ((basename p).drop (i + 1))

/-- A path without its extension and the dot in front of it. -/
def stem (p : List UInt8) : List UInt8 :=
  match extension? p with
  | some e => p.take (p.length - e.length - 1)
  | none => p

end Layering.Path.Bytes
