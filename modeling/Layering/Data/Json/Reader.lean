import Layering.Data.Json.Number
import Layering.Data.Decode

/-!
# Reading JSON

A text becomes a tree even if it is not well formed: the tree ends where the text
goes wrong. Each reader returns the text that is left, or none once the text has
gone wrong.
-/

namespace Layering.Data.Json

/-- The blanks between tokens. -/
def isSpace (c : Char) : Bool := c == ' ' || c == '\n' || c == '\t' || c == '\r'

/-- A text from its first token on. -/
def skipSpace (l : List Char) : List Char := l.dropWhile isSpace

/-- The value of a hexadecimal digit. -/
def hexDigit? (c : Char) : Option Nat := (Scalar.digit? c).filter (· < 16)

/-- The number that four hexadecimal digits write. -/
def hex4? (a b c d : Char) : Option Nat := do
  return (((← hexDigit? a) * 16 + (← hexDigit? b)) * 16 + (← hexDigit? c)) * 16 + (← hexDigit? d)

/-- The character of a one-letter escape. -/
def escape? : Char → Option Char
  | '"' => some '"'
  | '\\' => some '\\'
  | '/' => some '/'
  | 'b' => some '\x08'
  | 'f' => some '\x0c'
  | 'n' => some '\n'
  | 'r' => some '\r'
  | 't' => some '\t'
  | _ => none

/-- The characters of a string so far, last first, with the first half of a pair
of surrogates if one has just been read. Once a surrogate has stood alone, the
string has no value. -/
structure Chars where
  done : List Char
  half : Option Nat
  valued : Bool

/-- After a character. -/
def Chars.push (s : Chars) (c : Char) : Chars := ⟨c :: s.done, none, s.valued && s.half.isNone⟩

/-- After a sixteen-bit unit. -/
def Chars.pushUnit (s : Chars) (n : Nat) : Chars :=
  if 0xDC00 ≤ n ∧ n < 0xE000 then
    match s.half with
    | some h => ⟨Char.ofNat (0x10000 + (h - 0xD800) * 0x400 + (n - 0xDC00)) :: s.done, none, s.valued⟩
    | none => ⟨s.done, none, false⟩
  else if 0xD800 ≤ n ∧ n < 0xDC00 then ⟨s.done, some n, s.valued && s.half.isNone⟩
  else s.push (Char.ofNat n)

/-- The node of a finished string. -/
def Chars.node (s : Chars) : Node :=
  if s.valued && s.half.isNone then .text (String.ofList s.done.reverse) else .unvalued

/-- Reads a string after its opening quote. -/
def readString (s : Chars) : List Char → Node × Option (List Char)
  | '"' :: l => (s.node, some l)
  | '\\' :: 'u' :: a :: b :: c :: d :: l =>
    match hex4? a b c d with
    | some n => readString (s.pushUnit n) l
    | none => (.broken, none)
  | '\\' :: e :: l =>
    match escape? e with
    | some c => readString (s.push c) l
    | none => (.broken, none)
  | c :: l => if c == '\\' || c.toNat < 0x20 then (.broken, none) else readString (s.push c) l
  | [] => (.broken, none)

/-- What stands between two values of a container. -/
inductive Delimiter
  /-- The container ends, and this text follows. -/
  | close (rest : List Char)
  /-- Another value starts with this text. -/
  | next (rest : List Char)
  | wrong

/-- The delimiter at the start of a text, in a container that ends with `ends`
and in which no value has been read yet if it is `fresh`. -/
def Delimiter.read (ends : Char) (fresh : Bool) (l : List Char) : Delimiter :=
  match skipSpace l with
  | c :: r =>
    if c = ends then .close r
    else if fresh then .next (c :: r)
    else if c = ',' then
      match skipSpace r with
      | d :: r => if d = ends then .wrong else .next (d :: r)
      | [] => .next []
    else .wrong
  | [] => .wrong

/-- Reads a text if it starts with a word. -/
def readWord (word : List Char) (n : Node) (l : List Char) : Node × Option (List Char) :=
  if word.isPrefixOf l then (n, some (l.drop word.length)) else (.broken, none)

mutual

/-- Reads a value. -/
def readValue : (fuel : Nat) → List Char → Node × Option (List Char)
  | 0, _ => (.broken, none)
  | fuel + 1, l =>
    match skipSpace l with
    | '"' :: r => readString ⟨[], none, true⟩ r
    | '[' :: r =>
      let (items, rest) := readItems fuel true r
      (.list items rest.isSome, rest)
    | '{' :: r =>
      let (entries, rest) := readEntries fuel true r
      (.map entries rest.isSome, rest)
    | 'n' :: r => readWord ['n', 'u', 'l', 'l'] .null ('n' :: r)
    | 't' :: r => readWord ['t', 'r', 'u', 'e'] (.bool true) ('t' :: r)
    | 'f' :: r => readWord ['f', 'a', 'l', 's', 'e'] (.bool false) ('f' :: r)
    | r => readNumber r

/-- Reads the items of a sequence up to its end. -/
def readItems : (fuel : Nat) → (fresh : Bool) → List Char → List Node × Option (List Char)
  | 0, _, _ => ([], none)
  | fuel + 1, fresh, l =>
    match Delimiter.read ']' fresh l with
    | .close r => ([], some r)
    | .wrong => ([], none)
    | .next r =>
      match readValue fuel r with
      | (n, none) => ([n], none)
      | (n, some r) =>
        let (items, rest) := readItems fuel false r
        (n :: items, rest)

/-- Reads the entries of a mapping up to its end. A value that stands where a key
should is kept as the key of a broken entry. -/
def readEntries : (fuel : Nat) → (fresh : Bool) → List Char →
    List (Node × Node) × Option (List Char)
  | 0, _, _ => ([], none)
  | fuel + 1, fresh, l =>
    match Delimiter.read '}' fresh l with
    | .close r => ([], some r)
    | .wrong => ([], none)
    | .next r =>
      match r with
      | '"' :: r =>
        match readString ⟨[], none, true⟩ r with
        | (_, none) => ([], none)
        | (key, some r) =>
          match skipSpace r with
          | ':' :: r =>
            match readValue fuel r with
            | (n, none) => ([(key, n)], none)
            | (n, some r) =>
              let (entries, rest) := readEntries fuel false r
              ((key, n) :: entries, rest)
          | _ => ([(key, .broken)], none)
      | r =>
        match readValue fuel r with
        | (.broken, _) => ([], none)
        | (key, _) => ([(key, .broken)], none)

end

/-- A JSON text: its value, and whether nothing follows it. -/
structure Document where
  root : Node
  ends : Bool

/-- Reads a text. -/
def Document.read (s : String) : Document :=
  let l := s.toList
  match readValue (2 * l.length + 2) l with
  | (n, none) => ⟨n, false⟩
  | (n, some r) => ⟨n, (skipSpace r).isEmpty⟩

/-- Reads a value of a type off a JSON text. -/
def decode {α : Type} (d : Decoder α) (s : String) : Except Mismatch α := do
  let document := Document.read s
  let a ← d .text fullRoom document.root
  requireWhole document.ends
  return a

end Layering.Data.Json
