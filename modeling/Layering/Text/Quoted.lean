import Layering.Text.Class

/-!
# Quotations

A text between double quotes, with everything escaped that would not show:
quotes and backslashes, the common controls by letter, and by number all other
characters that are not printable or that extend the character before them.
-/

namespace Layering.Text

/-- A character inside a quotation. -/
def quoteChar (c : Char) : List Char :=
  match c with
  | '"' => ['\\', '"']
  | '\\' => ['\\', '\\']
  | '\n' => ['\\', 'n']
  | '\t' => ['\\', 't']
  | '\r' => ['\\', 'r']
  | '\x00' => ['\\', '0']
  | c =>
    if isExtender c || !isPrintable c then
      ['\\', 'u', '{'] ++ Nat.toDigits 16 c.toNat ++ ['}']
    else [c]

/-- A text as a quotation. -/
def quoted (s : String) : String :=
  String.ofList ('"' :: (s.toList.flatMap quoteChar ++ ['"']))

end Layering.Text
