import Layering.Files.Lookup
import Layering.Glob.Match
import Layering.Text.Blank

/-!
# Ignore files

An ignore file holds a glob on each line. `!` in front makes it an exception, a
slash at the end restricts it to directories, and a slash elsewhere ties it to the
directory of the file. Of the lines that match a path the last one counts.
-/

namespace Layering

/-- A line of an ignore file. -/
structure IgnoreRule where
  glob : Glob
  isException : Bool
  onlyDirectories : Bool

/-- What ignore files say of a path. -/
inductive IgnoreVerdict
  | ignored
  | kept
  | silent
  deriving DecidableEq

/-- A verdict, or where there is none, another. -/
def IgnoreVerdict.orElse : IgnoreVerdict → IgnoreVerdict → IgnoreVerdict
  | silent, v => v
  | v, _ => v

namespace IgnoreRule

/-- How the globs of ignore files are read. -/
def options : Glob.Options := ⟨false, true, true⟩

/-- Drops the blanks at the end of a line, unless the last one is escaped. -/
def trimEnd (line : List Char) : List Char :=
  match line.reverse with
  | ' ' :: '\\' :: _ => line
  | _ => Text.dropEndWhile Text.isBlank line

/-- Drops the slash at the end of a line, with a backslash in front of it. -/
def dropSlash (line : List Char) : List Char :=
  match line.reverse with
  | '/' :: '\\' :: l => l.reverse
  | '/' :: l => l.reverse
  | _ => line

/-- Whether a line ends with a slash. -/
def endsWithSlash (line : List Char) : Bool := line.getLast? == some '/'

/-- The glob of what is left of a line. Without a slash it may match at any depth,
and `/**` at the end does not match the directory itself. -/
def globText (tied : Bool) (body : List Char) : List Char :=
  let anywhere := !tied && !body.contains '/' && body != ['*', '*']
  let body := if anywhere then '*' :: '*' :: '/' :: body else body
  if "/**".toList.isSuffixOf body then body ++ ['/', '*'] else body

/-- The rule of what follows the mark of an exception. -/
def ofBody? (isException tied : Bool) (line : List Char) : Option IgnoreRule :=
  match Glob.parse options (String.ofList (globText tied (dropSlash line))) with
  | .ok g => some ⟨g, isException, endsWithSlash line⟩
  | .error _ => none

/-- The rule of what follows the mark of an exception, which a slash in front ties
to the directory. -/
def ofPath? (isException : Bool) : List Char → Option IgnoreRule
  | '/' :: l => ofBody? isException true l
  | l => ofBody? isException false l

/-- The rule of a line, if it holds one. -/
def ofLine? : List Char → Option IgnoreRule
  | '#' :: _ => none
  | line =>
    match trimEnd line with
    | [] => none
    | '\\' :: '!' :: l => ofBody? false false ('!' :: l)
    | '\\' :: '#' :: l => ofBody? false false ('#' :: l)
    | '!' :: l => ofPath? true l
    | l => ofPath? false l

/-- The lines that pieces between line feeds are, up to the first that is not text.
In front of a line feed a carriage return does not count. -/
def textLines : List (List UInt8) → List (List Char)
  | [] => []
  | [l] =>
    match Text.decode? l with
    | some s => [s.toList]
    | none => []
  | l :: m :: ls =>
    match Text.decode? l with
    | some s => Text.dropReturn s.toList :: textLines (m :: ls)
    | none => []

/-- The rules of a file. A byte order mark in front of the first line does not
count. -/
def ofFile (content : List UInt8) : List IgnoreRule :=
  let lines := match textLines (Text.splitOn 0x0A content) with
    | [] => []
    | first :: rest => first.dropWhile (· == '\uFEFF') :: rest
  lines.filterMap ofLine?

/-- Whether a rule is about a path. -/
def isAbout (r : IgnoreRule) (path : List UInt8) (isDirectory : Bool) : Bool :=
  (isDirectory || !r.onlyDirectories) && r.glob.matchesBytes path

/-- What rules say of a path: the last one that is about it counts. -/
def verdict (rules : List IgnoreRule) (path : List UInt8) (isDirectory : Bool) : IgnoreVerdict :=
  match rules.reverse.find? (·.isAbout path isDirectory) with
  | some r => if r.isException then .kept else .ignored
  | none => .silent

end IgnoreRule

/-- The rules that a directory holds, by the file they come from. -/
structure IgnoreRules where
  own : List IgnoreRule
  shared : List IgnoreRule
  hidden : List IgnoreRule

namespace IgnoreRules

/-- Whether rules may stand in a file with a name. -/
def isIgnoreFile (name : Files.Name) : Bool :=
  [".ignore", ".gitignore", "exclude"].any fun s => Text.encode s.toList == name

/-- The rules in a file at a path; none if there is no such file. -/
def readFile (p : Files.Place) (path : String) : List IgnoreRule :=
  match p.read (Text.encode path.toList) with
  | .ok content => IgnoreRule.ofFile content
  | .error _ => []

/-- The rules that a directory holds. -/
def ofPlace (p : Files.Place) : IgnoreRules :=
  ⟨readFile p ".ignore", readFile p ".gitignore", readFile p ".git/info/exclude"⟩

/-- What the rules of directories say of a path. The directories stand from the
inside out, each with its name, and the path starts in the innermost; the first one
that says anything counts. -/
def verdictOf (rules : IgnoreRules → List IgnoreRule) (isDirectory : Bool) :
    (path : List UInt8) → List (Files.Name × IgnoreRules) → IgnoreVerdict
  | _, [] => .silent
  | path, (name, r) :: outer =>
    (IgnoreRule.verdict (rules r) path isDirectory).orElse
      (verdictOf rules isDirectory (name ++ 0x2F :: path) outer)

/-- What the rules of directories say of an entry of the innermost. -/
def verdict (chain : List (Files.Name × IgnoreRules)) (name : Files.Name) (isDirectory : Bool) :
    IgnoreVerdict :=
  (verdictOf own isDirectory name chain).orElse
    ((verdictOf shared isDirectory name chain).orElse (verdictOf hidden isDirectory name chain))

/-- Whether the rules leave an entry out. A name that starts with a dot is left out
unless a rule keeps it. -/
def leavesOut (chain : List (Files.Name × IgnoreRules)) (name : Files.Name) (isDirectory : Bool) :
    Bool :=
  match verdict chain name isDirectory with
  | .ignored => true
  | .kept => false
  | .silent => name.head? == some 0x2E

end IgnoreRules

end Layering
