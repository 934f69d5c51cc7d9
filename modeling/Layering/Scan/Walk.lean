import Layering.Scan.Ignore

/-!
# The files below a directory

All files at any depth, each with the names that lead to it. Links are not
followed, entries called `.git` are passed over, and so is what ignore files leave
out where they are honoured.
-/

namespace Layering.Files

/-- A file and the names that lead to it. -/
structure FoundFile where
  path : List Name
  content : List UInt8

/-- The name of the directory of a version control system, which is never looked
into. -/
def versionControl : Name := Text.encode ".git".toList

/-- Whether an entry is a directory. -/
def Entry.isDir : Entry → Bool
  | dir _ => true
  | _ => false

/-- A walk: whether ignore files are honoured, the directory it has come to, the
rules of that directory and those around it up to where it began, and the names on
the way, both from the inside out. -/
structure Walk where
  honour : Bool
  place : Place
  rules : List (Name × IgnoreRules)
  path : List Name

namespace Walk

/-- Whether an entry of the directory is passed over. -/
def passesOver (w : Walk) (name : Name) (e : Entry) : Bool :=
  name == versionControl || (w.honour && IgnoreRules.leavesOut w.rules name e.isDir)

/-- The walk that begins in a directory. -/
def start (honour : Bool) (p : Place) : Walk where
  honour := honour
  place := p
  rules := if honour then [(p.name, .ofPlace p)] else []
  path := []

/-- Goes into a directory of the directory. -/
def enter (w : Walk) (name : Name) (entries : Listing) : Walk :=
  let p := w.place.enter name entries
  { w with
    place := p
    rules := if w.honour then (name, .ofPlace p) :: w.rules else []
    path := name :: w.path }

mutual

/-- The files that an entry of the directory is or holds. -/
def filesOf (w : Walk) (name : Name) : Entry → List FoundFile
  | .file content => [⟨(name :: w.path).reverse, content⟩]
  | .link _ => []
  | .dir entries => filesIn (w.enter name entries) entries

/-- The files that some entries of the directory are or hold. -/
def filesIn (w : Walk) : List (Name × Entry) → List FoundFile
  | [] => []
  | (name, e) :: l => (if w.passesOver name e then [] else filesOf w name e) ++ filesIn w l

end

end Walk

/-- The files below a directory. -/
def Place.files (p : Place) (honour : Bool) : List FoundFile :=
  (Walk.start honour p).filesIn p.entries

end Layering.Files
