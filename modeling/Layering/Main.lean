import Layering.Command.Run
import Layering.Command.Timestamp
import Std.Time.DateTime.Timestamp

/-!
# The program

Reads the command line and the files that the command looks at, runs the command,
and writes what comes of it.
-/

namespace Layering.Program

/-- The text that tells how the program is used. -/
def usage : String := "\n".intercalate [
  "Layered module dependency analysis for C code bases",
  "",
  "Usage: " ++ programName ++ " [-v] <COMMAND>",
  "",
  "Commands:",
  "  scan <ROOT> [-c <FILE>] [-o <FILE>]       Scan a source tree and write the corpus as JSON",
  "  analyze <CORPUS> [-c <FILE>] [-o <FILE>]  Analyze a corpus JSON file",
  "  run <ROOT> [-c <FILE>] [-o <FILE>]        Scan a source tree and analyze it",
  "  rules [-f toml|yaml|json]                 Print the default settings",
  "  help                                      Print this text",
  "",
  "Options:",
  "  -c, --config <FILE>    Settings file (.toml, .yaml or .json)",
  "  -o, --output <FILE>    Output file (defaults to stdout)",
  "  -v, --verbose          Enable verbose logging",
  "  -h, --help             Print this text"]

/-- The cause of an error of the system. -/
def fileError : IO.Error → Files.FileError
  | .noFileOrDirectory _ _ _ => .notFound
  | .inappropriateType _ 20 _ => .notDirectory
  | .inappropriateType _ 21 _ => .isDirectory
  | .invalidArgument _ 36 _ => .nameTooLong
  | .invalidArgument _ 40 _ => .linkLoop
  | e => .system (toString e)

/-- The text of a file. -/
def readText (file : String) : IO (Except Files.FileError String) := do
  match ← (IO.FS.readBinFile file).toBaseIO with
  | .ok content =>
    match Text.decode? content.toList with
    | some s => return .ok s
    | none => return .error .notText
  | .error e => return .error (fileError e)

/-- The content of an entry of a directory as that of a file; a link to nowhere if it
cannot be read. -/
def readFile (e : IO.FS.DirEntry) : IO Files.Entry := do
  match ← (IO.FS.readBinFile e.path).toBaseIO with
  | .ok content => return .file content.toList
  | .error _ => return .link []

/-- The entries of a directory at any depth, none where it cannot be read. Files have
their contents only where these are wanted. Links do not tell where they lead to,
but where rules may stand in a file they are that file. -/
partial def readListing (wanted : Files.Name → Bool) (dir : IO.FS.DirEntry) :
    IO Files.Listing := do
  match ← dir.path.readDir.toBaseIO with
  | .error _ => return []
  | .ok entries => entries.toList.mapM fun e => do
    let name := Text.encode e.fileName.toList
    match ← e.path.symlinkMetadata.toBaseIO with
    | .error _ => return (name, .link [])
    | .ok m =>
      match m.type with
      | .dir => return (name, .dir (← readListing wanted e))
      | .file => return (name, ← if wanted name then readFile e else pure (.file []))
      | .symlink =>
        return (name, ← if IgnoreRules.isIgnoreFile name then readFile e else pure (.link []))
      | .other => return (name, .link [])

/-- The directory that a root is, if it is one. -/
def readPlace (c : ScanConfig) (root : String) : IO (Option Files.Place) := do
  let dir : IO.FS.DirEntry := ⟨root, "."⟩
  if ← dir.path.isDir then
    return some (.top (← readListing c.reads dir))
  return none

/-- The files that a command looks at. -/
def readInput (c : Command) : IO CommandInput := do
  let files := c.files.settings.toList ++ c.corpus?.toList
  let texts ← files.mapM fun file => return (file, ← readText file)
  let text := fun file => (texts.lookup file).getD (.error .notFound)
  let place ← match c.root?, Command.loadSettings ⟨text, fun _ => none⟩ c.files.settings with
    | some root, .ok settings => readPlace settings.scan root
    | _, _ => pure none
  return ⟨text, fun _ => place⟩

/-- The time of the day and the date. -/
def now : IO Timestamp := do
  return ⟨(← Std.Time.Timestamp.now).toNanosecondsSinceUnixEpoch.val.toNat⟩

/-- Writes what a command gives to where it goes. -/
def deliver (o : CommandOutput) : IO (Except CommandError Unit) := do
  match o.file with
  | none =>
    IO.println o.text
    return .ok ()
  | some file =>
    match ← (IO.FS.writeFile file o.text).toBaseIO with
    | .ok () => return .ok ()
    | .error e => return .error (.unwritable file (fileError e))

/-- Runs a command. -/
def run (c : Command) : IO (Except CommandError Unit) := do
  let input ← readInput c
  match c.execute input (← now).text with
  | .error e => return .error e
  | .ok o =>
    if let some summary := o.summary then IO.eprintln summary
    deliver o

end Layering.Program

/-- Runs the command of a command line. -/
def main (args : List String) : IO UInt32 := do
  match Layering.Command.ofArgs .nothing args with
  | .error .help =>
    IO.println Layering.Program.usage
    return 0
  | .error .wrong =>
    IO.eprintln Layering.Program.usage
    return 2
  | .ok c =>
    match ← Layering.Program.run c with
    | .ok () => return 0
    | .error e =>
      IO.eprintln ("Error: " ++ e.message ++ "\n\nCaused by:\n    " ++ e.cause)
      return 1
