import Layering.Text.Blank

/-!
# Include directives

A directive is a number sign, `include`, blanks, and a name between delimiters.
Blanks may stand in front of `include`, and need not be there at all; the two
delimiters need not fit each other. The name is what stands between them, whatever
it is, line breaks included.
-/

namespace Layering.Source

/-- Whether a character ends the name of an include directive. -/
def closesName (c : Char) : Bool := c == '>' || c == '"'

/-- Whether a character starts the name of an include directive. -/
def opensName (c : Char) : Bool := c == '<' || c == '"'

/-- The name between delimiters at the start of a text, and how many characters
they take. -/
def delimitedName? : List Char → Option (List Char × Nat)
  | [] => none
  | c :: l =>
    let name := l.takeWhile (!closesName ·)
    if opensName c && !name.isEmpty && name.length < l.length then some (name, name.length + 2)
    else none

/-- The name of the include directive whose number sign stands in front of a text,
and how many characters of the text the directive takes. -/
def directive? (l : List Char) : Option (List Char × Nat) :=
  let keyword := l.dropWhile Text.isBlank
  if "include".toList.isPrefixOf keyword then
    let after := keyword.drop "include".length
    let rest := after.dropWhile Text.isBlank
    if rest.length < after.length then
      (delimitedName? rest).map fun (name, n) => (name, l.length - rest.length + n)
    else none
  else none

/-- The names of the include directives of a text, of which the first `skip`
characters belong to a directive already read. -/
def includesAfter : (skip : Nat) → List Char → List (List Char)
  | _, [] => []
  | skip + 1, _ :: l => includesAfter skip l
  | 0, c :: l =>
    if c = '#' then
      match directive? l with
      | some (name, n) => name :: includesAfter n l
      | none => includesAfter 0 l
    else includesAfter 0 l

/-- The names of the include directives of a text, without blanks at their ends. -/
def includes (text : String) : List String :=
  (includesAfter 0 text.toList).map fun name => String.ofList (Text.trim name)

end Layering.Source
