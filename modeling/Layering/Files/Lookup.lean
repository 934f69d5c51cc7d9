import Layering.Files.Tree
import Layering.Text.Blank
import Layering.Text.Utf8

/-!
# Looking up paths

A path leads from a directory through the entries it names. Empty components and
`.` stay where they are, `..` goes back, and a link stands for its target. What
lies outside the tree is not there.
-/

namespace Layering.Files

/-- A directory of a tree: its name and entries, and the same of the directories
around it, from the inside out. -/
structure Place where
  name : Name
  entries : Listing
  outer : List (Name × Listing)

namespace Place

/-- The topmost directory. -/
def top (entries : Listing) : Place := ⟨[], entries, []⟩

/-- A directory in a directory. -/
def enter (p : Place) (name : Name) (entries : Listing) : Place :=
  ⟨name, entries, (p.name, p.entries) :: p.outer⟩

/-- The directory around a directory. -/
def leave? (p : Place) : Option Place :=
  match p.outer with
  | [] => none
  | (name, entries) :: outer => some ⟨name, entries, outer⟩

/-- The whole tree after other entries have been put into directories, from the
inside out. -/
def rebuild : (name : Name) → (entries : Listing) → (outer : List (Name × Listing)) → Listing
  | _, entries, [] => entries
  | name, entries, (n, around) :: outer => rebuild n (around.put name (.dir entries)) outer

end Place

/-- What a path leads to. -/
inductive Target
  | dir (place : Place)
  | file (content : List UInt8)

/-- Where a walk along a path stops: at its end, or at a link with components
still to go. -/
inductive Stop
  | target (t : Target)
  | link (place : Place) (path : List UInt8) (rest : List Name)

/-- The dot, as the name of the directory itself. -/
def here : Name := [0x2E]

/-- Two dots, as the name of the directory around it. -/
def above : Name := [0x2E, 0x2E]

/-- The components of a path: the pieces between slashes. -/
def components (path : List UInt8) : List Name := Text.splitOn 0x2F path

/-- Goes along components as far as the first link. -/
def advance (p : Place) : List Name → Except FileError Stop
  | [] => .ok (.target (.dir p))
  | c :: rest =>
    if c.isEmpty || c == here then advance p rest
    else if c == above then
      match p.leave? with
      | some p => advance p rest
      | none => .error .notFound
    else if c.length > 255 then .error .nameTooLong
    else
      match p.entries.find? c with
      | none => .error .notFound
      | some (.dir entries) => advance (p.enter c entries) rest
      | some (.link path) => .ok (.link p path rest)
      | some (.file content) =>
        if rest.isEmpty then .ok (.target (.file content)) else .error .notDirectory

/-- Whether a path leads out of the tree, or nowhere. -/
def isForeign (path : List UInt8) : Bool := path.isEmpty || path.head? == some 0x2F

/-- Goes along components and through links, of which there may be `links`. -/
def follow : (links : Nat) → Place → List Name → Except FileError Target
  | links, p, cs =>
    match advance p cs, links with
    | .error e, _ => .error e
    | .ok (.target t), _ => .ok t
    | .ok (.link _ _ _), 0 => .error .linkLoop
    | .ok (.link p path rest), links + 1 =>
      if isForeign path then .error .notFound else follow links p (components path ++ rest)

/-- The most links that a path may lead through. -/
def linkLimit : Nat := 40

/-- Refuses what cannot be a path in the tree. -/
def checkPath (path : List UInt8) : Except FileError Unit :=
  if path.contains 0 then .error .nulInName
  else if path.length ≥ 4096 then .error .nameTooLong
  else if isForeign path then .error .notFound
  else .ok ()

namespace Place

/-- What a path leads to. -/
def resolve (p : Place) (path : List UInt8) : Except FileError Target := do
  checkPath path
  follow linkLimit p (components path)

/-- The directory that a path leads to, if it leads to one. -/
def dir? (p : Place) (path : List UInt8) : Option Place :=
  match p.resolve path with
  | .ok (.dir p) => some p
  | _ => none

/-- The content of the file that a path leads to. -/
def read (p : Place) (path : List UInt8) : Except FileError (List UInt8) := do
  match ← p.resolve path with
  | .file content => return content
  | .dir _ => throw .isDirectory

/-- The text of the file that a path leads to. -/
def readText (p : Place) (path : List UInt8) : Except FileError String := do
  match Text.decode? (← p.read path) with
  | some s => return s
  | none => throw .notText

/-- The directory and the name that a path to a file has. After a slash at the end
there is no name. -/
def parts (path : List UInt8) : List Name × Name :=
  let cs := components path
  if path.getLast? == some 0x2F then ((cs.reverse.dropWhile (·.isEmpty)).tail.reverse, [])
  else (cs.dropLast, cs.getLastD [])

/-- The whole tree after a file has been written into a directory. A link stands
for its target here too. -/
def writeName (content : List UInt8) : (links : Nat) → Place → (path : List Name) → (name : Name) →
    Except FileError Listing
  | links, p, path, name => do
    match ← follow linkLimit p path, links with
    | .file _, _ => throw .notDirectory
    | .dir p, links =>
      if name.isEmpty || name == here || name == above then throw .isDirectory
      if name.length > 255 then throw .nameTooLong
      match p.entries.find? name, links with
      | some (.dir _), _ => throw .isDirectory
      | some (.link _), 0 => throw .linkLoop
      | some (.link target), links + 1 =>
        if isForeign target then throw .notFound
        let (path, name) := parts target
        writeName content links p path name
      | _, _ => return rebuild p.name (p.entries.put name (.file content)) p.outer

/-- The whole tree after a file has been written. -/
def write (p : Place) (path content : List UInt8) : Except FileError Listing := do
  checkPath path
  let (path, name) := parts path
  writeName content linkLimit p path name

end Place

end Layering.Files
