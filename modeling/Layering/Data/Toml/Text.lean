import Layering.Data.Scalar

/-!
# Strings and keys in TOML

A string stands between quotes, basic ones with escapes and literal ones without,
on one line or, between triple quotes, on several. Each reader returns the rest of
the text, or none if the text is not well formed.
-/

namespace Layering.Data.Toml

/-- Blanks within a line. -/
def isSpace (c : Char) : Bool := c == ' ' || c == '\t'

/-- Characters that stand for themselves in comments and strings. -/
def isPlain (c : Char) : Bool := c == '\t' || (0x20 ≤ c.toNat && c.toNat != 0x7F)

/-- The text after a line break, if it starts with one. -/
def afterBreak? : List Char → Option (List Char)
  | '\n' :: l => some l
  | '\r' :: '\n' :: l => some l
  | _ => none

/-- The text after a line break, or the text itself. -/
def dropBreak (l : List Char) : List Char := (afterBreak? l).getD l

/-- The character of an escape by a letter. -/
def escape? : Char → Option Char
  | 'b' => some '\x08'
  | 't' => some '\t'
  | 'n' => some '\n'
  | 'f' => some '\x0c'
  | 'r' => some '\r'
  | '"' => some '"'
  | '\\' => some '\\'
  | _ => none

/-- The character whose number hexadecimal digits write. -/
def hexChar? (digits : List Char) : Option Char :=
  match Scalar.digits? 16 digits with
  | some n => if n < 0xD800 ∨ (0xDFFF < n ∧ n < 0x110000) then some (Char.ofNat n) else none
  | none => none

/-- A string read so far, last character first, and what follows it. -/
abbrev TextReader := (done : List Char) → List Char → Option (String × List Char)

/-- Reads a basic string after its opening quote. -/
def readBasic : TextReader
  | done, '"' :: l => some (String.ofList done.reverse, l)
  | done, '\\' :: 'u' :: a :: b :: c :: d :: l =>
    match hexChar? [a, b, c, d] with
    | some x => readBasic (x :: done) l
    | none => none
  | done, '\\' :: 'U' :: a :: b :: c :: d :: e :: f :: g :: h :: l =>
    match hexChar? [a, b, c, d, e, f, g, h] with
    | some x => readBasic (x :: done) l
    | none => none
  | done, '\\' :: e :: l =>
    match escape? e with
    | some x => readBasic (x :: done) l
    | none => none
  | done, c :: l => if isPlain c && c != '\\' then readBasic (c :: done) l else none
  | _, [] => none

/-- Reads a literal string after its opening quote. -/
def readLiteral : TextReader
  | done, '\'' :: l => some (String.ofList done.reverse, l)
  | done, c :: l => if isPlain c then readLiteral (c :: done) l else none
  | _, [] => none

/-- Ends a string on several lines after its three closing quotes: up to two more
quotes in front of them belong to the string. -/
def closeLong (quote : Char) (done l : List Char) : String × List Char :=
  match l with
  | a :: b :: r =>
    if a = quote ∧ b = quote then (String.ofList (quote :: quote :: done).reverse, r)
    else if a = quote then (String.ofList (quote :: done).reverse, b :: r)
    else (String.ofList done.reverse, l)
  | [a] =>
    if a = quote then (String.ofList (quote :: done).reverse, [])
    else (String.ofList done.reverse, l)
  | [] => (String.ofList done.reverse, [])

/-- Whether the text after a backslash is blank up to the end of the line. -/
def breaksLine (l : List Char) : Bool := (afterBreak? (l.dropWhile isSpace)).isSome

/-- Reads a basic string on several lines. After a backslash at the end of a line,
blanks and line breaks are left out: then the reader is `trimming`. -/
def readLongBasic : (trimming : Bool) → TextReader
  | _, done, '"' :: '"' :: '"' :: l => some (closeLong '"' done l)
  | _, done, '\\' :: 'u' :: a :: b :: c :: d :: l =>
    match hexChar? [a, b, c, d] with
    | some x => readLongBasic false (x :: done) l
    | none => none
  | _, done, '\\' :: 'U' :: a :: b :: c :: d :: e :: f :: g :: h :: l =>
    match hexChar? [a, b, c, d, e, f, g, h] with
    | some x => readLongBasic false (x :: done) l
    | none => none
  | _, done, '\\' :: e :: l =>
    match escape? e with
    | some x => readLongBasic false (x :: done) l
    | none => if breaksLine (e :: l) then readLongBasic true done (e :: l) else none
  | trimming, done, '\r' :: '\n' :: l =>
    readLongBasic trimming (if trimming then done else '\n' :: done) l
  | trimming, done, '\n' :: l => readLongBasic trimming (if trimming then done else '\n' :: done) l
  | trimming, done, c :: l =>
    if trimming && isSpace c then readLongBasic true done l
    else if isPlain c && c != '\\' then readLongBasic false (c :: done) l
    else none
  | _, _, [] => none

/-- Reads a literal string on several lines. -/
def readLongLiteral : TextReader
  | done, '\'' :: '\'' :: '\'' :: l => some (closeLong '\'' done l)
  | done, '\r' :: '\n' :: l => readLongLiteral ('\n' :: done) l
  | done, c :: l => if isPlain c || c == '\n' then readLongLiteral (c :: done) l else none
  | _, [] => none

/-- Reads a string. -/
def readText : List Char → Option (String × List Char)
  | '"' :: '"' :: '"' :: l => readLongBasic false [] (dropBreak l)
  | '"' :: l => readBasic [] l
  | '\'' :: '\'' :: '\'' :: l => readLongLiteral [] (dropBreak l)
  | '\'' :: l => readLiteral [] l
  | _ => none

/-- Characters of keys without quotes. -/
def isKeyChar (c : Char) : Bool := c.isAlphanum || c == '-' || c == '_'

/-- Reads a part of a key. -/
def readKeyPart (l : List Char) : Option (String × List Char) :=
  match l with
  | '"' :: l => readBasic [] l
  | '\'' :: l => readLiteral [] l
  | l =>
    let name := l.takeWhile isKeyChar
    if name.isEmpty then none else some (String.ofList name, l.drop name.length)

/-- Reads the parts of a key with dots between them and blanks around them. There
may be `most` parts. -/
def readKey : (most : Nat) → List Char → Option (List String × List Char)
  | 0, _ => none
  | most + 1, l => do
    let (part, l) ← readKeyPart (l.dropWhile isSpace)
    match l.dropWhile isSpace with
    | '.' :: l => do
      let (parts, l) ← readKey most l
      return (part :: parts, l)
    | l => return ([part], l)

end Layering.Data.Toml
