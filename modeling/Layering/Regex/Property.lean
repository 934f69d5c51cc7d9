import Layering.Regex.Basic

/-!
# Character properties by name

The named classes of patterns: general categories by their short and long names,
a few more properties, and the classes of ASCII.
-/

namespace Layering.Regex

open Text (Category category isWord isDecimal isBlank)

/-- A name without blanks, dashes, underscores and regard to case, and without
`is` in front. -/
def looseName (l : List Char) : String :=
  let bare := (l.filter fun c => !(c == ' ' || c == '-' || c == '_')).map Char.toLower
  match bare with
  | 'i' :: 's' :: c :: r => String.ofList (c :: r)
  | b => String.ofList b

/-- Sets of general categories with their names. -/
def categoryNames : List (List String × (Category → Bool)) := [
  (["l", "letter"], Category.isLetter),
  (["lc", "casedletter"], fun k => k == .lu || k == .ll || k == .lt),
  (["lu", "uppercaseletter"], (· == .lu)),
  (["ll", "lowercaseletter"], (· == .ll)),
  (["lt", "titlecaseletter"], (· == .lt)),
  (["lm", "modifierletter"], (· == .lm)),
  (["lo", "otherletter"], (· == .lo)),
  (["m", "mark", "combiningmark"], Category.isMark),
  (["mn", "nonspacingmark"], (· == .mn)),
  (["mc", "spacingmark"], (· == .mc)),
  (["me", "enclosingmark"], (· == .me)),
  (["n", "number"], Category.isNumber),
  (["nd", "decimalnumber", "digit"], (· == .nd)),
  (["nl", "letternumber"], (· == .nl)),
  (["no", "othernumber"], (· == .no)),
  (["p", "punctuation", "punct"], Category.isPunctuation),
  (["pc", "connectorpunctuation"], (· == .pc)),
  (["pd", "dashpunctuation"], (· == .pd)),
  (["ps", "openpunctuation"], (· == .ps)),
  (["pe", "closepunctuation"], (· == .pe)),
  (["pi", "initialpunctuation"], (· == .pi)),
  (["pf", "finalpunctuation"], (· == .pf)),
  (["po", "otherpunctuation"], (· == .po)),
  (["s", "symbol"], Category.isSymbol),
  (["sm", "mathsymbol"], (· == .sm)),
  (["sc", "currencysymbol"], (· == .sc)),
  (["sk", "modifiersymbol"], (· == .sk)),
  (["so", "othersymbol"], (· == .so)),
  (["z", "separator"], Category.isSeparator),
  (["zs", "spaceseparator"], (· == .zs)),
  (["zl", "lineseparator"], (· == .zl)),
  (["zp", "paragraphseparator"], (· == .zp)),
  (["c", "other"], Category.isOther),
  (["cc", "control", "cntrl"], (· == .cc)),
  (["cf", "format"], (· == .cf)),
  (["cn", "unassigned"], (· == .cn)),
  (["co", "privateuse"], (· == .co)),
  (["any"], fun _ => true),
  (["assigned"], (· != .cn))]

/-- The other properties by their names. -/
def propertyNames : List (List String × CharSet) := [
  (["ascii"], fun c => c.toNat < 0x80),
  (["whitespace", "wspace", "space"], isBlank),
  (["lowercase", "lower"], fun c =>
    category c == .ll || (Text.isCased c && Text.lowerChar c == c && category c != .lt &&
      category c != .lu)),
  (["uppercase", "upper"], fun c => category c == .lu || (0x2160 ≤ c.toNat && c.toNat ≤ 0x216f) ||
    (Text.inRanges c.toNat Text.circledLetters && c.toNat < 0x24d0) ||
    (Text.inRanges c.toNat Text.circledLetters && c.toNat > 0x1f000)),
  (["joincontrol", "joinc"], fun c => c.toNat == 0x200c || c.toNat == 0x200d)]

/-- The category or property of a name. -/
def property? (name : List Char) : Option CharSet :=
  let n := looseName name
  match categoryNames.find? (·.1.contains n) with
  | some (_, p) => some fun c => p (category c)
  | none => (propertyNames.find? (·.1.contains n)).map (·.2)

/-- The property of a class with a value, such as `gc=Lu`. -/
def propertyValue? (key value : List Char) : Option CharSet :=
  let k := looseName key
  if k == "gc" || k == "generalcategory" then
    (categoryNames.find? (·.1.contains (looseName value))).map fun e c => e.2 (category c)
  else none

/-- The classes of ASCII by their names. -/
def asciiClass? (name : List Char) : Option CharSet :=
  let between := fun (a b : Char) (c : Char) => decide (a ≤ c ∧ c ≤ b)
  match String.ofList name with
  | "alnum" => some Char.isAlphanum
  | "alpha" => some Char.isAlpha
  | "ascii" => some fun c => c.toNat < 0x80
  | "blank" => some fun c => c == ' ' || c == '\t'
  | "cntrl" => some fun c => c.toNat < 0x20 || c.toNat == 0x7f
  | "digit" => some Char.isDigit
  | "graph" => some (between '!' '~')
  | "lower" => some Char.isLower
  | "print" => some (between ' ' '~')
  | "punct" => some fun c => between '!' '~' c && !c.isAlphanum
  | "space" => some fun c => c == ' ' || between '\t' '\r' c
  | "upper" => some Char.isUpper
  | "word" => some fun c => c.isAlphanum || c == '_'
  | "xdigit" => some fun c => c.isDigit || between 'a' 'f' c || between 'A' 'F' c
  | _ => none

/-- The classes that patterns know by a letter, in Unicode or in ASCII. -/
def letterClass? (unicode : Bool) (c : Char) : Option CharSet :=
  match c.toLower with
  | 'd' => some (if unicode then isDecimal else Char.isDigit)
  | 's' => some (if unicode then isBlank else fun c => c == ' ' || (9 ≤ c.toNat && c.toNat ≤ 13))
  | 'w' => some (if unicode then isWord else fun c => c.isAlphanum || c == '_')
  | _ => none

end Layering.Regex
