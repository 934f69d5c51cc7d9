/-!
# Paths of units

A path is a text whose components are separated by slashes or backslashes. The
extension of a path is what follows the last dot of its last component, unless
that dot is the component's first character.
-/

namespace Layering.Path

/-- Whether a character separates components. -/
def isSeparator (c : Char) : Bool := c == '/' || c == '\\'

/-- The last component. -/
def lastComponent (p : List Char) : List Char := (p.reverse.takeWhile (!isSeparator ·)).reverse

/-- What stands in front of the extension, without the dot, and the extension. -/
def split? (p : List Char) : Option (List Char × List Char) :=
  let name := p.reverse.takeWhile (!isSeparator ·)
  let ext := name.takeWhile (· != '.')
  match name.drop ext.length with
  | '.' :: _ :: _ => some (p.take (p.length - (ext.length + 1)), ext.reverse)
  | _ => none

/-- The last component of a path. -/
def basename (p : String) : String := String.ofList (lastComponent p.toList)

/-- The extension of a path. -/
def extension? (p : String) : Option String := (split? p.toList).map fun s => String.ofList s.2

/-- A path without its extension. -/
def stem (p : String) : String :=
  match split? p.toList with
  | some s => String.ofList s.1
  | none => p

/-- A path with an extension put at its end. -/
def withExtension (p ext : String) : String := p ++ "." ++ ext

end Layering.Path
