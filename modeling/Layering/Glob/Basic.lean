/-!
# Glob patterns

The tokens of a pattern and how a pattern is read.

`?` is any one byte and `*` any number of them; `**` as a whole component stands
for any number of components. `[a-z]` and `[!a-z]` are classes, `{a,b}` is a
choice, and a backslash takes the special meaning from the next character.
-/

namespace Layering.Glob

/-- A part of a pattern. -/
inductive Token
  | literal (c : Char)
  | anyOne
  | anyRun
  /-- `**/` at the start. -/
  | anyPrefix
  /-- `/**` at the end. -/
  | anySuffix
  /-- `/**/` in the middle. -/
  | anyMiddle
  | oneOf (negated : Bool) (ranges : List (Char × Char))
  | choice (branches : List (List Token))

/-- Why a text is no pattern. -/
inductive GlobError
  | unclosedClass
  | invalidRange (first last : Char)
  | unopenedChoice
  | unclosedChoice
  | danglingEscape
  deriving DecidableEq

/-- The text of an error. -/
def GlobError.message : GlobError → String
  | unclosedClass => "unclosed character class; missing ']'"
  | invalidRange a b =>
    "invalid range; '" ++ String.ofList [a] ++ "' > '" ++ String.ofList [b] ++ "'"
  | unopenedChoice =>
    "unopened alternate group; missing '\x7b' (maybe escape '\x7d' with '[\x7d]'?)"
  | unclosedChoice =>
    "unclosed alternate group; missing '\x7d' (maybe escape '\x7b' with '[\x7b]'?)"
  | danglingEscape => "dangling '\\'"

/-- A choice that is still open: what stands before it, last token first, and its
finished branches, last one first. -/
structure OpenChoice where
  before : List Token
  branches : List (List Token)

/-- A pattern that has been read in part: the tokens of the branch under way, last
one first, the choices around it, and whether an unclosed class was met, after
which `[` is a plain character. -/
structure Draft where
  branch : List Token
  choices : List OpenChoice
  literalBrackets : Bool

namespace Draft

/-- Adds a token. -/
def push (d : Draft) (t : Token) : Draft := { d with branch := t :: d.branch }

/-- Adds two runs. -/
def pushTwoRuns (d : Draft) : Draft := (d.push .anyRun).push .anyRun

/-- Puts a token in the place of the last one, unless that one already stands for
any number of components at the same end. -/
def replaceLast (d : Draft) (t : Token) : Draft :=
  match d.branch with
  | .anyPrefix :: _ => d
  | .anySuffix :: _ => d
  | _ :: l => { d with branch := t :: l }
  | [] => d.push t

/-- Opens a choice. -/
def openChoice (d : Draft) : Draft :=
  { d with branch := [], choices := ⟨d.branch, []⟩ :: d.choices }

/-- Starts the next branch; outside a choice a comma is a plain character. -/
def comma (d : Draft) : Draft :=
  match d.choices with
  | [] => d.push (.literal ',')
  | c :: cs => { d with branch := [], choices := ⟨c.before, d.branch.reverse :: c.branches⟩ :: cs }

/-- Closes a choice. -/
def closeChoice (d : Draft) : Except GlobError Draft :=
  match d.choices with
  | [] => .error .unopenedChoice
  | c :: cs =>
    .ok { d with
      branch := .choice (d.branch.reverse :: c.branches).reverse :: c.before, choices := cs }

end Draft

/-- The ranges of a class so far, last one first, and whether a dash waits for the
end of a range. -/
structure ClassDraft where
  ranges : List (Char × Char)
  dash : Bool

/-- Adds a character to a class, or ends a range with it. -/
def ClassDraft.add (d : ClassDraft) (c : Char) : Except GlobError ClassDraft :=
  match d.dash, d.ranges with
  | true, (a, _) :: l => if c < a then .error (.invalidRange a c) else .ok ⟨(a, c) :: l, false⟩
  | _, l => .ok ⟨(c, c) :: l, false⟩

/-- Reads a class after its opening bracket and its negation. The answer is none
if it is not closed. -/
def readClass (first : Bool) (d : ClassDraft) :
    List Char → Except GlobError (Option (List (Char × Char) × List Char))
  | [] => .ok none
  | c :: l =>
    if c = ']' ∧ !first then
      .ok (some ((if d.dash then ('-', '-') :: d.ranges else d.ranges).reverse, l))
    else if c = '-' ∧ !first ∧ !d.dash then readClass false ⟨d.ranges, true⟩ l
    else
      match d.add c with
      | .ok d => readClass false d l
      | .error e => .error e

/-- How patterns are read and matched. -/
structure Options where
  /-- The case of ASCII letters does not matter. -/
  ignoreCase : Bool
  /-- Only `**` goes across a slash. -/
  literalSeparator : Bool
  /-- A class that is not closed is plain text. -/
  allowUnclosedClass : Bool

/-- Whether a character ends a component, or there is none. -/
def endsComponent : List Char → Bool
  | [] => true
  | c :: _ => c == '/'

/-- Reads `**`, which two stars after `prev` and before `rest` may be. The answer
is the pattern so far and the text and character to go on with. -/
def readDoubleStar (prev : Option Char) (rest : List Char) (d : Draft) :
    Draft × Option Char × List Char :=
  let runs := (d.pushTwoRuns, some '*', rest)
  if d.branch.isEmpty then
    if endsComponent rest then (d.push .anyPrefix, some '/', rest.drop 1) else runs
  else if prev != some '/' && (d.choices.isEmpty || (prev != some ',' && prev != some '{')) then runs
  else
    match rest with
    | [] => (d.replaceLast .anySuffix, some '*', [])
    | c :: l =>
      if (c == ',' || c == '}') && !d.choices.isEmpty then (d.replaceLast .anySuffix, some '*', rest)
      else if c == '/' then (d.replaceLast .anyMiddle, some '/', l)
      else runs

/-- Reads the rest of a pattern, where `prev` is the character before it. Every
step takes at least one character, so the length of the text is fuel enough. -/
def readFrom (o : Options) : (fuel : Nat) → (prev : Option Char) → Draft → List Char →
    Except GlobError Draft
  | 0, _, d, _ => .ok d
  | _ + 1, _, d, [] => .ok d
  | fuel + 1, prev, d, c :: l =>
    match c with
    | '?' => readFrom o fuel (some c) (d.push .anyOne) l
    | '*' =>
      match l with
      | '*' :: rest =>
        let (d, prev, l) := readDoubleStar prev rest d
        readFrom o fuel prev d l
      | _ => readFrom o fuel (some c) (d.push .anyRun) l
    | '{' => readFrom o fuel (some c) d.openChoice l
    | '}' => do readFrom o fuel (some c) (← d.closeChoice) l
    | ',' => readFrom o fuel (some c) d.comma l
    | '\\' =>
      match l with
      | [] => .error .danglingEscape
      | e :: l => readFrom o fuel (some e) (d.push (.literal e)) l
    | '[' =>
      if d.literalBrackets then readFrom o fuel (some c) (d.push (.literal c)) l
      else do
        let negated := l.head? == some '!' || l.head? == some '^'
        match ← readClass true ⟨[], false⟩ (if negated then l.drop 1 else l) with
        | some (ranges, l) => readFrom o fuel (some ']') (d.push (.oneOf negated ranges)) l
        | none =>
          if o.allowUnclosedClass then
            readFrom o fuel (some c) { d.push (.literal c) with literalBrackets := true } l
          else throw .unclosedClass
    | _ => readFrom o fuel (some c) (d.push (.literal c)) l

/-- The tokens of a pattern. -/
def readTokens (o : Options) (pattern : List Char) : Except GlobError (List Token) := do
  let d ← readFrom o pattern.length none ⟨[], [], false⟩ pattern
  if d.choices.isEmpty then return d.branch.reverse else throw .unclosedChoice

end Layering.Glob
