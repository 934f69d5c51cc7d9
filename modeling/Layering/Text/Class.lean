import Layering.Text.Category.Basic
import Layering.Text.Category.Table

/-!
# Classes of characters

Word characters, decimal digits, printable characters and the marks that extend
the character before them, from the general categories and a few characters
that Unicode lists beside them.
-/

namespace Layering.Text

/-- The general category of a character. -/
def category (c : Char) : Category := Category.lookup c.toNat .cn Category.runs

/-- The circled and squared letters, which are alphabetic without being
letters. -/
def circledLetters : List (Nat × Nat) :=
  [(0x24b6, 0x24e9), (0x1f130, 0x1f149), (0x1f150, 0x1f169), (0x1f170, 0x1f189)]

/-- Word characters: alphabetic characters, marks, decimal digits, connecting
punctuation and the two joiners. -/
def isWord (c : Char) : Bool :=
  if c.toNat < 0x80 then c.isAlphanum || c == '_'
  else
    let k := category c
    k.isLetter || k.isMark || k == .nd || k == .nl || k == .pc || inRanges c.toNat circledLetters ||
      c.toNat == 0x200c || c.toNat == 0x200d

/-- Decimal digits. -/
def isDecimal (c : Char) : Bool :=
  if c.toNat < 0x80 then c.isDigit else category c == .nd

/-- Characters that a quotation shows as they are: no separator but the space,
nothing without a shape of its own. -/
def isPrintable (c : Char) : Bool :=
  if c.toNat < 0x80 then 0x20 ≤ c.toNat && c.toNat < 0x7f
  else !((category c).isSeparator || (category c).isOther)

/-- The spacing marks and others that extend a character without being
non-spacing marks. -/
def spacingExtenders : List (Nat × Nat) := [
  (0x9be, 0x9be), (0x9d7, 0x9d7), (0xb3e, 0xb3e), (0xb57, 0xb57), (0xbbe, 0xbbe), (0xbd7, 0xbd7),
  (0xcc0, 0xcc0), (0xcc2, 0xcc2), (0xcc7, 0xcc8), (0xcca, 0xccb), (0xcd5, 0xcd6), (0xd3e, 0xd3e),
  (0xd57, 0xd57), (0xdcf, 0xdcf), (0xddf, 0xddf), (0x1715, 0x1715), (0x1734, 0x1734),
  (0x1b35, 0x1b35), (0x1b3b, 0x1b3b), (0x1b3d, 0x1b3d), (0x1b43, 0x1b44), (0x1baa, 0x1baa),
  (0x1bf2, 0x1bf3), (0x200c, 0x200c), (0x302e, 0x302f), (0xa953, 0xa953), (0xa9c0, 0xa9c0),
  (0xff9e, 0xff9f), (0x111c0, 0x111c0), (0x11235, 0x11235), (0x1133e, 0x1133e),
  (0x1134d, 0x1134d), (0x11357, 0x11357), (0x113b8, 0x113b8), (0x113c2, 0x113c2),
  (0x113c5, 0x113c5), (0x113c7, 0x113c9), (0x113cf, 0x113cf), (0x114b0, 0x114b0),
  (0x114bd, 0x114bd), (0x115af, 0x115af), (0x116b6, 0x116b6), (0x11930, 0x11930),
  (0x1193d, 0x1193d), (0x11f41, 0x11f41), (0x16ff0, 0x16ff1), (0x1d165, 0x1d166),
  (0x1d16d, 0x1d172), (0xe0020, 0xe007f)]

/-- Characters that extend the character before them. -/
def isExtender (c : Char) : Bool :=
  c.toNat ≥ 0x80 &&
    (category c == .mn || category c == .me || inRanges c.toNat spacingExtenders)

end Layering.Text
