import Layering.Data.Scalar
import Layering.Data.Yaml.Folding

/-!
# Quoted scalars

Between single quotes only the quote itself is written in a special way: twice.
Between double quotes a backslash starts an escape.
-/

namespace Layering.Data.Yaml

/-- What a letter after a backslash stands for: a character, or the number of
digits that write its number. -/
def escape? : Char → Option (Char ⊕ Nat)
  | '0' => some (.inl '\x00')
  | 'a' => some (.inl '\x07')
  | 'b' => some (.inl '\x08')
  | 't' | '\t' => some (.inl '\t')
  | 'n' => some (.inl '\n')
  | 'v' => some (.inl '\x0b')
  | 'f' => some (.inl '\x0c')
  | 'r' => some (.inl '\r')
  | 'e' => some (.inl '\x1b')
  | ' ' => some (.inl ' ')
  | '"' => some (.inl '"')
  | '/' => some (.inl '/')
  | '\\' => some (.inl '\\')
  | 'N' => some (.inl '\u0085')
  | '_' => some (.inl '\u00a0')
  | 'L' => some (.inl '\u2028')
  | 'P' => some (.inl '\u2029')
  | 'x' => some (.inr 2)
  | 'u' => some (.inr 4)
  | 'U' => some (.inr 8)
  | _ => none

/-- A quoted scalar that has been read in part: its text, last character first, the
gap since the last word, and digits still to come with the number so far. -/
structure QuotedDraft where
  done : List Char
  gap : Option Gap
  digits : Option (Nat × Nat)

/-- After a character that stands for itself. -/
def QuotedDraft.push (d : QuotedDraft) (c : Char) : QuotedDraft :=
  ⟨c :: afterGap d.gap d.done, none, none⟩

/-- After a digit, `left` digits before the last of the number. -/
def QuotedDraft.digit? (d : QuotedDraft) (left n : Nat) (c : Char) : Option QuotedDraft := do
  let n := n * 16 + (← (Scalar.digit? c).filter (· < 16))
  if left > 0 then return { d with digits := some (left, n) }
  else if n < 0xD800 ∨ (0xDFFF < n ∧ n < 0x110000) then
    return { d with done := Char.ofNat n :: d.done, digits := none }
  else none

/-- Reads a quoted scalar after its opening quote. -/
def readQuoted (quote : Char) : QuotedDraft → List Glyph → Option (String × List Glyph)
  | _, [] => none
  | d, g :: l =>
    match d.digits with
    | some (left, n) =>
      match d.digit? (left - 1) n g.char with
      | some d => readQuoted quote d l
      | none => none
    | none =>
      let c := g.char
      if isSpace c then readQuoted quote { d with gap := some ((d.gap.getD .empty).blank c) } l
      else if isBreak c then
        readQuoted quote { d with gap := some ((d.gap.getD .empty).lineBreak c) } l
      else if d.gap.isSome && startsBoundary (g :: l) then none
      else if c = quote then
        match l with
        | h :: l =>
          if quote = '\'' ∧ h.char = '\'' then readQuoted quote (d.push '\'') l
          else some (String.ofList (afterGap d.gap d.done).reverse, h :: l)
        | [] => some (String.ofList (afterGap d.gap d.done).reverse, [])
      else if c = '\\' ∧ quote = '"' then
        match l with
        | [] => none
        | h :: l =>
          let done := afterGap d.gap d.done
          if isBreak h.char then readQuoted quote ⟨done, some .escaped, none⟩ l
          else
            match escape? h.char with
            | some (.inl x) => readQuoted quote ⟨x :: done, none, none⟩ l
            | some (.inr n) => readQuoted quote ⟨done, none, some (n, 0)⟩ l
            | none => none
      else readQuoted quote (d.push c) l

end Layering.Data.Yaml
