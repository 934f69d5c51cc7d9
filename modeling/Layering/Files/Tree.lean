/-!
# Trees of files

A directory lists entries by name: files, links and further directories. Names,
contents and targets of links are bytes, which need not be text.
-/

namespace Layering.Files

/-- The name of an entry. -/
abbrev Name := List UInt8

/-- The extension of a name: what follows the last dot, unless that is the first
byte. -/
def extension? (name : Name) : Option (List UInt8) :=
  let ext := name.reverse.takeWhile (· != 0x2E)
  match name.reverse.drop ext.length with
  | _ :: _ :: _ => some ext.reverse
  | _ => none

/-- What a directory may list. -/
inductive Entry
  | file (content : List UInt8)
  | link (target : List UInt8)
  | dir (entries : List (Name × Entry))

/-- The entries of a directory. -/
abbrev Listing := List (Name × Entry)

namespace Listing

/-- The entry with a name. -/
def find? (l : Listing) (name : Name) : Option Entry := List.lookup name l

/-- Puts an entry in the place of the one with its name, or at the end. -/
def put (name : Name) (e : Entry) : Listing → Listing
  | [] => [(name, e)]
  | (n, old) :: l => if n = name then (n, e) :: l else (n, old) :: put name e l

/-- Changes the entry at a path, or puts one there. Directories that are missing on
the way are made. -/
def update (f : Option Entry → Entry) : (path : List Name) → Listing → Listing
  | [], l => l
  | [name], l => l.put name (f (l.find? name))
  | name :: rest, l =>
    let inner := match l.find? name with
      | some (.dir entries) => entries
      | _ => []
    l.put name (.dir (update f rest inner))

/-- Puts an entry at a path, in the place of what is there. -/
def insert (e : Entry) : (path : List Name) → Listing → Listing := update fun _ => e

/-- Makes a directory at a path, unless there is one. -/
def makeDir : (path : List Name) → Listing → Listing :=
  update fun
    | some (.dir entries) => .dir entries
    | _ => .dir []

end Listing

/-- Why a file cannot be read or written. -/
inductive FileError
  | notFound
  | notDirectory
  | isDirectory
  | nameTooLong
  | linkLoop
  | nulInName
  | notText
  /-- Another error of the operating system. -/
  | system (text : String)
  deriving DecidableEq

/-- The text of an error. -/
def FileError.message : FileError → String
  | notFound => "No such file or directory (os error 2)"
  | notDirectory => "Not a directory (os error 20)"
  | isDirectory => "Is a directory (os error 21)"
  | nameTooLong => "File name too long (os error 36)"
  | linkLoop => "Too many levels of symbolic links (os error 40)"
  | nulInName => "file name contained an unexpected NUL byte"
  | notText => "stream did not contain valid UTF-8"
  | system text => text

end Layering.Files
