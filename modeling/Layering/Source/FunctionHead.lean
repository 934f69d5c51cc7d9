import Layering.SourceUnit
import Layering.Text.Blank
import Layering.Text.Class

/-!
# Heads of functions

A line is the head of a function if it reads: a word, any number of words and
runs of stars, then the name, with stars in front of it or none, then parameters
in brackets, and at most an opening brace. Words that are no type, such as `if`,
make the line another statement.
-/

namespace Layering.Source

/-- The head of a function: the words and stars in front of the name, and the
name. -/
structure FunctionHead where
  specifiers : List (List Char)
  name : List Char
  deriving DecidableEq

/-- Whether a text is a word. -/
def isWord (l : List Char) : Bool := !l.isEmpty && l.all Text.isWord

/-- Whether a text is a run of stars. -/
def isStars (l : List Char) : Bool := !l.isEmpty && l.all (· == '*')

/-- Whether what follows the opening bracket is parameters, and a brace at most
after them. -/
def closesHead (l : List Char) : Bool :=
  match l.dropWhile (· != ')') with
  | [] => false
  | _ :: rest =>
    match rest.dropWhile Text.isBlank with
    | '{' :: rest => rest.all Text.isBlank
    | rest => rest.isEmpty

namespace FunctionHead

/-- The head that the words before the brackets make. -/
def ofWords? (ws : List (List Char)) : Option FunctionHead :=
  match ws.reverse with
  | [] => none
  | last :: before =>
    let name := last.dropWhile (· == '*')
    match before.reverse with
    | [] => none
    | first :: rest =>
      if isWord first && rest.all (fun w => isWord w || isStars w) && isWord name then
        some ⟨first :: rest, name⟩
      else none

/-- The head that a line is, if it is one. The line has no blanks at its ends. -/
def ofLine? (line : List Char) : Option FunctionHead :=
  let before := line.takeWhile (· != '(')
  match line.drop before.length with
  | [] => none
  | _ :: after => if closesHead after then ofWords? (Text.words before) else none

/-- Words that make a line a statement and not a head. -/
def keywords : List (List Char) :=
  ["if", "while", "for", "switch", "return", "sizeof", "else"].map String.toList

/-- Whether a name is reserved: an underscore and a capital letter. -/
def isReserved : List Char → Bool
  | '_' :: c :: _ => c.isUpper
  | _ => false

/-- Whether a head defines a symbol. -/
def isDefinition (h : FunctionHead) : Bool :=
  !isReserved h.name && !keywords.contains h.name && !h.specifiers.any keywords.contains

/-- The symbol that a head defines. -/
def symbol (h : FunctionHead) : Symbol :=
  ⟨String.ofList h.name, h.specifiers.contains "static".toList⟩

end FunctionHead

/-- Symbols, of those with the same name only the first. -/
def firstByName : (seen : List String) → List Symbol → List Symbol
  | _, [] => []
  | seen, s :: l =>
    if seen.contains s.name then firstByName seen l else s :: firstByName (s.name :: seen) l

/-- The functions that a text defines, each name once. -/
def functions (text : String) : List Symbol :=
  let heads := (Text.lines text.toList).filterMap fun line => FunctionHead.ofLine? (Text.trim line)
  firstByName [] ((heads.filter FunctionHead.isDefinition).map FunctionHead.symbol)

end Layering.Source
