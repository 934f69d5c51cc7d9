import Layering.Data.Scalar
import Layering.Regex.Property

/-!
# Reading patterns

A pattern is read from left to right with the flags in force at each place. What
is no pattern is refused without a reason, since none is ever shown.
-/

namespace Layering.Regex

/-- The flags in force. -/
structure Flags where
  ignoreCase : Bool
  multiLine : Bool
  dotAll : Bool
  swapGreed : Bool
  unicode : Bool
  returns : Bool
  verbose : Bool

/-- The flags at the start of a pattern. -/
def Flags.initial : Flags := ⟨false, false, false, false, true, false, false⟩

/-- Sets the flag of a letter. -/
def Flags.set (f : Flags) (c : Char) (on : Bool) : Option Flags :=
  match c with
  | 'i' => some { f with ignoreCase := on }
  | 'm' => some { f with multiLine := on }
  | 's' => some { f with dotAll := on }
  | 'U' => some { f with swapGreed := on }
  | 'u' => some { f with unicode := on }
  | 'R' => some { f with returns := on }
  | 'x' => some { f with verbose := on }
  | _ => none

/-- A set with regard to the flags. -/
def Flags.fold (f : Flags) (s : CharSet) : CharSet := if f.ignoreCase then s.folded else s

/-- Drops blanks and comments where they do not count. -/
def skipVerbose (f : Flags) : (comment : Bool) → List Char → List Char
  | _, [] => []
  | true, c :: l => skipVerbose f (c != '\n') l
  | false, c :: l =>
    if !f.verbose then c :: l
    else if Text.isBlank c then skipVerbose f false l
    else if c == '#' then skipVerbose f true l
    else c :: l

/-! ## Escapes -/

/-- What an escape stands for. -/
inductive Escape
  | char (c : Char)
  | set (s : CharSet) (negated : Bool)
  | assertion (a : Assertion)

/-- Characters that an escape makes plain. -/
def isEscapable (c : Char) : Bool := c.toNat < 0x80 && !c.isAlphanum && c != '<' && c != '>'

/-- The character of a number. -/
def charOf? (n : Nat) : Option Char :=
  if n < 0xD800 ∨ (0xDFFF < n ∧ n < 0x110000) then some (Char.ofNat n) else none

/-- Reads a character by its number: in braces, or in a fixed number of digits. -/
def readHex (digits : Nat) (l : List Char) : Option (Char × List Char) :=
  match l with
  | '{' :: r =>
    let ds := r.takeWhile (· != '}')
    match r.drop ds.length with
    | _ :: rest =>
      ((Data.Scalar.digits? 16 ds).bind charOf?).map fun c => (c, rest)
    | [] => none
  | l =>
    let ds := l.take digits
    if ds.length = digits then
      ((Data.Scalar.digits? 16 ds).bind charOf?).map fun c => (c, l.drop digits)
    else none

/-- Reads the name of a property, in braces unless it is one letter. -/
def readProperty (l : List Char) : Option (CharSet × Bool × List Char) :=
  match l with
  | '{' :: r =>
    let body := r.takeWhile (· != '}')
    match r.drop body.length with
    | [] => none
    | _ :: rest =>
      let (negated, body) := match body with
        | '^' :: b => (true, b)
        | b => (false, b)
      let splitAt := fun (c : Char) => body.takeWhile (· != c)
      let named := fun (key value : List Char) (flip : Bool) =>
        (propertyValue? key value).map fun s => (s, negated != flip, rest)
      let plain := (property? body).map fun s => (s, negated, rest)
      match body.drop (splitAt ':').length, body.drop (splitAt '=').length with
      | _ :: v, _ => named (splitAt ':') v false
      | [], _ :: v =>
        match (splitAt '=').reverse with
        | '!' :: k => named k.reverse v true
        | _ => named (splitAt '=') v false
      | [], [] => plain
  | c :: rest => (property? [c]).map fun s => (s, false, rest)
  | [] => none

/-- The word characters with regard to the flags. -/
def Flags.word (f : Flags) : CharSet := (letterClass? f.unicode 'w').getD fun _ => false

/-- Reads what follows `\b`: a word boundary, or one of its halves in braces. -/
def readBoundary (f : Flags) (l : List Char) : Option (Escape × List Char) :=
  match l with
  | '{' :: r =>
    let body := r.takeWhile (· != '}')
    match r.drop body.length with
    | [] => none
    | _ :: rest =>
      match String.ofList body with
      | "start" => some (.assertion (.startWord f.word), rest)
      | "end" => some (.assertion (.endWord f.word), rest)
      | "start-half" => some (.assertion (.startWordHalf f.word), rest)
      | "end-half" => some (.assertion (.endWordHalf f.word), rest)
      | _ =>
        if body.all (fun c => c.isAlpha || c == '-') then none
        else some (.assertion (.boundary f.word), l)
  | l => some (.assertion (.boundary f.word), l)

/-- Reads an escape after its backslash. -/
def readEscape (f : Flags) : List Char → Option (Escape × List Char)
  | [] => none
  | c :: l =>
    match c with
    | 'x' => (readHex 2 l).map fun (c, l) => (.char c, l)
    | 'u' => (readHex 4 l).map fun (c, l) => (.char c, l)
    | 'U' => (readHex 8 l).map fun (c, l) => (.char c, l)
    | 'p' | 'P' =>
      if f.unicode then (readProperty l).map fun (s, n, l) => (.set (f.fold s) (n != (c == 'P')), l)
      else none
    | 'd' | 's' | 'w' => (letterClass? f.unicode c).map fun s => (.set s false, l)
    | 'D' | 'S' | 'W' =>
      if f.unicode then (letterClass? true c).map fun s => (.set s true, l) else none
    | 'a' => some (.char '\x07', l)
    | 'f' => some (.char '\x0c', l)
    | 't' => some (.char '\t', l)
    | 'n' => some (.char '\n', l)
    | 'r' => some (.char '\r', l)
    | 'v' => some (.char '\x0b', l)
    | 'A' => some (.assertion .startText, l)
    | 'z' => some (.assertion .endText, l)
    | 'b' => readBoundary f l
    | 'B' => some (.assertion (.noBoundary f.word), l)
    | '<' => some (.assertion (.startWord f.word), l)
    | '>' => some (.assertion (.endWord f.word), l)
    | c => if isEscapable c then some (.char c, l) else none

/-! ## Classes -/

/-- How two sets are combined. -/
inductive SetOp
  | intersection
  | difference
  | symmetric

/-- Combines two sets. -/
def SetOp.apply : SetOp → CharSet → CharSet → CharSet
  | intersection, a, b => fun c => a c && b c
  | difference, a, b => fun c => a c && !b c
  | symmetric, a, b => fun c => a c != b c

/-- A class under way: its negation, the set and operation before the union under
way, and that union. -/
structure OpenClass where
  negated : Bool
  left : Option (CharSet × SetOp)
  union : CharSet
  fresh : Bool

namespace OpenClass

/-- Adds a set to the union under way. -/
def add (k : OpenClass) (s : CharSet) : OpenClass :=
  { k with union := fun c => k.union c || s c, fresh := false }

/-- The set of all that has been read. -/
def value (f : Flags) (k : OpenClass) : CharSet :=
  match k.left with
  | some (a, op) => op.apply (f.fold a) (f.fold k.union)
  | none => k.union

/-- Starts the second set of an operation. -/
def operate (f : Flags) (k : OpenClass) (op : SetOp) : OpenClass :=
  { k with left := some (k.value f, op), union := fun _ => false, fresh := true }

/-- The set of a class that has been closed. -/
def close (f : Flags) (k : OpenClass) : CharSet :=
  let s := f.fold (k.value f)
  if k.negated then fun c => !s c else s

end OpenClass

/-- Dashes at the start of a class, which stand for themselves. -/
def leadingDashes (f : Flags) (k : OpenClass) : List Char → OpenClass × List Char
  | '-' :: l => leadingDashes f (k.add (· == '-')) l
  | l =>
    match skipVerbose f false l with
    | ']' :: r => if k.fresh then (k.add (· == ']'), r) else (k, ']' :: r)
    | r => (k, r)

/-- Opens a class after its bracket. -/
def openClass (f : Flags) (l : List Char) : OpenClass × List Char :=
  let empty : OpenClass := ⟨false, none, fun _ => false, true⟩
  match skipVerbose f false l with
  | '^' :: r => leadingDashes f { empty with negated := true } (skipVerbose f false r)
  | r => leadingDashes f empty r

/-- Reads `[:name:]` after its first bracket. -/
def readAsciiClass (l : List Char) : Option (CharSet × List Char) :=
  match l with
  | ':' :: r =>
    let (negated, r) := match r with
      | '^' :: r => (true, r)
      | r => (false, r)
    let name := r.takeWhile (· != ':')
    match r.drop name.length with
    | ':' :: ']' :: rest =>
      (asciiClass? name).map fun s => (fun c => s c != negated, rest)
    | _ => none
  | _ => none

/-- An end of a range, or a set. -/
inductive ClassItem
  | char (c : Char)
  | set (s : CharSet)

/-- The set of an item. -/
def ClassItem.toSet : ClassItem → CharSet
  | char c => (· == c)
  | set s => s

/-- Reads an item of a class. -/
def readClassItem (f : Flags) : List Char → Option (ClassItem × List Char)
  | [] => none
  | '\\' :: l =>
    match readEscape f l with
    | some (.char c, l) => some (.char c, l)
    | some (.set s negated, l) => some (.set fun c => s c != negated, l)
    | _ => none
  | c :: l => some (.char c, l)

/-- Reads a character, a range or a set of a class. -/
def readClassRange (f : Flags) (l : List Char) : Option (CharSet × List Char) := do
  let (first, l) ← readClassItem f l
  match skipVerbose f false l with
  | [] => none
  | '-' :: r =>
    match skipVerbose f false r with
    | [] => none
    | ']' :: _ | '-' :: _ => some (first.toSet, '-' :: r)
    | r => do
      let (last, r) ← readClassItem f r
      match first, last with
      | .char a, .char b => if a ≤ b then some (fun c => a ≤ c && c ≤ b, r) else none
      | _, _ => none
  | r => some (first.toSet, r)

/-- Reads a class with others inside it, the innermost first. Every step takes a
character, so the length of the text is fuel enough. -/
def readClass (f : Flags) : (fuel : Nat) → OpenClass → List OpenClass → List Char →
    Option (CharSet × List Char)
  | 0, _, _, _ => none
  | fuel + 1, k, outer, l =>
    match skipVerbose f false l with
    | [] => none
    | '[' :: r =>
      match readAsciiClass r with
      | some (s, r) => readClass f fuel (k.add s) outer r
      | none =>
        let (inner, r) := openClass f r
        readClass f fuel inner (k :: outer) r
    | ']' :: r =>
      match outer with
      | [] => some (k.close f, r)
      | o :: os => readClass f fuel (o.add (k.close f)) os r
    | '&' :: '&' :: r => readClass f fuel (k.operate f .intersection) outer r
    | '-' :: '-' :: r => readClass f fuel (k.operate f .difference) outer r
    | '~' :: '~' :: r => readClass f fuel (k.operate f .symmetric) outer r
    | r => do
      let (s, r) ← readClassRange f r
      readClass f fuel (k.add s) outer r

/-! ## Groups and repetitions -/

/-- Reads flags up to a colon or a closing bracket; the answer says which. -/
def readFlags (f : Flags) (on : Bool) (seen : List Char) :
    List Char → Option (Flags × Bool × List Char)
  | [] => none
  | ':' :: r => if seen.head? == some '-' then none else some (f, true, r)
  | ')' :: r => if seen.head? == some '-' || seen.isEmpty then none else some (f, false, r)
  | '-' :: r => if on then readFlags f false ('-' :: seen) r else none
  | c :: r =>
    if seen.contains c then none
    else
      match f.set c on with
      | some f => readFlags f on (c :: seen) r
      | none => none

/-- Whether a character may stand in the name of a group. -/
def isNameChar (first : Bool) (c : Char) : Bool :=
  let alphabetic := Text.isWord c && !Text.isDecimal c && c != '_' && !(Text.category c).isMark
  c == '_' || alphabetic ||
    (!first && (c == '.' || c == '[' || c == ']' || (Text.category c).isNumber))

/-- Reads the name of a group. -/
def readName (l : List Char) : Option (String × List Char) :=
  let name := l.takeWhile (· != '>')
  match name, l.drop name.length with
  | c :: cs, _ :: rest =>
    if isNameChar true c && cs.all (isNameChar false) then some (String.ofList name, rest) else none
  | _, _ => none

/-- Reads a decimal number between blanks. -/
def readCount (l : List Char) : Option (Nat × List Char) :=
  let l := l.dropWhile Text.isBlank
  let ds := l.takeWhile Char.isDigit
  (Data.Scalar.digits? 10 ds).bind fun n =>
    if n < Nat.pow 2 32 then some (n, (l.drop ds.length).dropWhile Text.isBlank) else none

/-- Reads the bounds of a counted repetition after the brace. -/
def readBounds (l : List Char) : Option (Nat × Option Nat × List Char) := do
  let (least, l) ← readCount l
  match l with
  | '}' :: r => some (least, some least, r)
  | ',' :: r =>
    match r with
    | '}' :: r => some (least, none, r)
    | r => do
      let (most, r) ← readCount r
      match r with
      | '}' :: r => if least ≤ most then some (least, some most, r) else none
      | _ => none
  | _ => none

/-- Reads a repetition mark: its bounds and the text after it. -/
def readRepetition : List Char → Option (Option (Nat × Option Nat × List Char))
  | '?' :: r => some (some (0, some 1, r))
  | '*' :: r => some (some (0, none, r))
  | '+' :: r => some (some (1, none, r))
  | '{' :: r => (readBounds r).map some
  | _ => some none

/-- What has been read of a group: whether the first capturing group has been
opened, the names so far, the branches, and the items of the branch under way,
last one first, each with whether it can be repeated. -/
structure Draft where
  captured : Bool
  names : List String
  flags : Flags
  branches : Option Expr
  items : List (Expr × Bool)

/-- The branch under way. -/
def Draft.branch (d : Draft) : Expr := d.items.foldl (fun e i => .seq i.1 e) .empty

/-- All branches. -/
def Draft.expr (d : Draft) : Expr :=
  match d.branches with
  | some e => .alt e d.branch
  | none => d.branch

/-- Adds an item. -/
def Draft.push (d : Draft) (e : Expr) : Draft := { d with items := (e, true) :: d.items }

/-- The set of a character. -/
def Flags.single (f : Flags) (c : Char) : CharSet := f.fold (· == c)

/-- The set that a dot stands for. -/
def Flags.dot (f : Flags) : CharSet :=
  if f.dotAll then fun _ => true
  else if f.returns then fun c => c != '\n' && c != '\r'
  else (· != '\n')

/-- How deep groups may nest. -/
def nestLimit : Nat := 250

/-- Reads the rest of a group at a depth, up to its closing bracket or the end of
the pattern. Every step takes a character, so the length of the text is fuel
enough. -/
def readGroup : (fuel : Nat) → (depth : Nat) → Draft → List Char → Option (Draft × List Char)
  | 0, _, _, _ => none
  | fuel + 1, depth, d, l =>
    let f := d.flags
    match skipVerbose f false l with
    | [] => if depth = 0 then some (d, []) else none
    | ')' :: r => if depth = 0 then none else some (d, r)
    | '|' :: r => readGroup fuel depth { d with branches := some d.expr, items := [] } r
    | '(' :: r => do
      if depth ≥ nestLimit then none
      let inner : Draft := { d with branches := none, items := [] }
      let enter := fun (inner : Draft) (capturing : Bool) (r : List Char) => do
        let first := capturing && !inner.captured
        let (g, r) ← readGroup fuel (depth + 1) { inner with captured := inner.captured || capturing } r
        let e := if first then .capture g.expr else g.expr
        readGroup fuel depth { d.push e with captured := g.captured, names := g.names } r
      match skipVerbose f false r with
      | '?' :: 'P' :: '<' :: r | '?' :: '<' :: r => do
        if r.head? == some '=' || r.head? == some '!' then none
        let (name, r) ← readName r
        if d.names.contains name then none
        enter { inner with names := name :: d.names } true r
      | '?' :: r => do
        let (flags, colon, r) ← readFlags f true [] r
        if colon then enter { inner with flags := flags } false r
        else readGroup fuel depth { d with flags := flags, items := (.empty, false) :: d.items } r
      | r => enter inner true r
    | '[' :: r => do
      let (k, r) := openClass f r
      if k.negated && !f.unicode then none
      let (s, r) ← readClass f (2 * r.length + 2) k [] r
      readGroup fuel depth (d.push (.set s)) r
    | '.' :: r =>
      if f.unicode then readGroup fuel depth (d.push (.set f.dot)) r else none
    | '^' :: r =>
      readGroup fuel depth (d.push (.assertion
        (if !f.multiLine then .startText else if f.returns then .startLineReturn else .startLine))) r
    | '$' :: r =>
      readGroup fuel depth (d.push (.assertion
        (if !f.multiLine then .endText else if f.returns then .endLineReturn else .endLine))) r
    | '\\' :: r => do
      match ← readEscape f r with
      | (.char c, r) => readGroup fuel depth (d.push (.set (f.single c))) r
      | (.set s negated, r) => readGroup fuel depth (d.push (.set fun c => s c != negated)) r
      | (.assertion a, r) => readGroup fuel depth (d.push (.assertion a)) r
    | c :: r => do
      match ← readRepetition (c :: r), d.items with
      | none, _ => readGroup fuel depth (d.push (.set (f.single c))) r
      | some (least, most, r), (e, true) :: items =>
        let (lazy, r) := match skipVerbose f false r with
          | '?' :: r => (true, r)
          | _ => (false, r)
        let e := e.repeated least most (lazy == f.swapGreed)
        readGroup fuel depth { d with items := (e, true) :: items } r
      | some _, _ => none

/-- The most instructions that a program may have. -/
def sizeLimit : Nat := 250000

/-- The expression of a pattern. -/
def parse (pattern : String) : Option Expr := do
  let l := pattern.toList
  let (d, _) ← readGroup (2 * l.length + 2) 0 ⟨false, [], .initial, none, []⟩ l
  if d.expr.size > sizeLimit then none
  return d.expr

end Layering.Regex
