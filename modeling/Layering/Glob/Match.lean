import Layering.Glob.Basic
import Layering.Text.Utf8

/-!
# Matching globs

A pattern is matched against the bytes of a path as a whole. A token is matched
in front of what is to follow it: the continuation says whether the rest of the
path fits the rest of the pattern.
-/

namespace Layering.Glob

/-- A byte without regard to the case of ASCII letters. -/
def lowerByte (b : UInt8) : UInt8 := if 0x41 ≤ b && b ≤ 0x5A then b + 0x20 else b

/-- The other case of an ASCII letter. -/
def otherCase (b : UInt8) : UInt8 :=
  if 0x41 ≤ b && b ≤ 0x5A then b + 0x20 else if 0x61 ≤ b && b ≤ 0x7A then b - 0x20 else b

/-- The slash. -/
def slash : UInt8 := 0x2F

/-- Whether `?` and `*` match a byte. -/
def Options.wild (o : Options) (b : UInt8) : Bool := !(o.literalSeparator && b == slash)

/-- Whether two bytes are the same. -/
def Options.same (o : Options) (a b : UInt8) : Bool :=
  if o.ignoreCase then lowerByte a == lowerByte b else a == b

/-- The path after the bytes of a text, if it starts with them. -/
def Options.after? (o : Options) : List UInt8 → List UInt8 → Option (List UInt8)
  | [], s => some s
  | _ :: _, [] => none
  | a :: l, b :: s => if o.same a b then o.after? l s else none

/-- The byte ranges of a class. Of a character that takes several bytes each byte
stands for itself; a range runs from the last byte of its first character to the
first byte of its last. -/
def byteRanges (ranges : List (Char × Char)) : List (UInt8 × UInt8) :=
  ranges.flatMap fun (a, b) =>
    let first := Text.encodeChar a
    let last := Text.encodeChar b
    if a = b then first.map fun x => (x, x)
    else
      first.dropLast.map (fun x => (x, x)) ++ [(first.getLastD 0, last.headD 0)] ++
        last.tail.map fun x => (x, x)

/-- Whether a class matches a byte. -/
def Options.inClass (o : Options) (negated : Bool) (ranges : List (Char × Char)) (b : UInt8) : Bool :=
  let has := fun b => (byteRanges ranges).any fun r => r.1 ≤ b && b ≤ r.2
  (has b || (o.ignoreCase && has (otherCase b))) != negated

/-- Whether a continuation holds after some run of bytes of a class. -/
def afterRun (p : UInt8 → Bool) (k : List UInt8 → Bool) : List UInt8 → Bool
  | [] => k []
  | b :: s => k (b :: s) || (p b && afterRun p k s)

/-- Whether a continuation holds right after some slash. -/
def afterSlash (k : List UInt8 → Bool) : List UInt8 → Bool
  | [] => false
  | b :: s => (b == slash && k s) || afterSlash k s

mutual

/-- Whether a token matches nothing but the empty text because it holds no other
pattern. -/
def Token.isVoid : Token → Bool
  | .choice branches => allVoid branches
  | _ => false

/-- Whether all tokens of a branch are void. -/
def branchVoid : List Token → Bool
  | [] => true
  | t :: ts => t.isVoid && branchVoid ts

/-- Whether all branches are void. -/
def allVoid : List (List Token) → Bool
  | [] => true
  | b :: bs => branchVoid b && allVoid bs

end

mutual

/-- Whether a token matches a start of the path and a continuation the rest. -/
def Token.matchThen (o : Options) (k : List UInt8 → Bool) : Token → List UInt8 → Bool
  | .literal c, s =>
    match o.after? (Text.encodeChar c) s with
    | some s => k s
    | none => false
  | .anyOne, s =>
    match s with
    | [] => false
    | b :: s => o.wild b && k s
  | .anyRun, s => afterRun o.wild k s
  | .anyPrefix, s => k s || afterSlash k s
  | .anySuffix, s =>
    match s with
    | [] => false
    | b :: s => b == slash && afterRun (fun _ => true) k s
  | .anyMiddle, s =>
    match s with
    | [] => false
    | b :: s => b == slash && (k s || afterSlash k s)
  | .oneOf negated ranges, s =>
    match s with
    | [] => false
    | b :: s => o.inClass negated ranges b && k s
  | .choice branches, s => if allVoid branches then k s else matchSome o k branches s

/-- Whether tokens match a start of the path and a continuation the rest. -/
def matchAll (o : Options) (k : List UInt8 → Bool) : List Token → List UInt8 → Bool
  | [], s => k s
  | t :: ts, s => t.matchThen o (fun s => matchAll o k ts s) s

/-- Whether one of the branches that are not void matches a start of the path and
a continuation the rest. -/
def matchSome (o : Options) (k : List UInt8 → Bool) : List (List Token) → List UInt8 → Bool
  | [], _ => false
  | b :: bs, s => (!branchVoid b && matchAll o k b s) || matchSome o k bs s

end

end Layering.Glob

namespace Layering

/-- A pattern that has been read. -/
structure Glob where
  options : Glob.Options
  tokens : List Glob.Token

namespace Glob

/-- Reads a pattern. -/
def parse (o : Options) (pattern : String) : Except GlobError Glob := do
  return ⟨o, ← readTokens o pattern.toList⟩

/-- Whether a pattern matches a path, given by its bytes. The pattern `**` alone
matches everything. -/
def matchesBytes (g : Glob) (path : List UInt8) : Bool :=
  match g.tokens with
  | [.anyPrefix] => true
  | ts => matchAll g.options List.isEmpty ts path

/-- Whether a pattern matches a path. -/
def isMatch (g : Glob) (path : String) : Bool := g.matchesBytes (Text.encode path.toList)

end Glob

end Layering
